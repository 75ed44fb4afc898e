import TyprCompanion.Core.TransitionSystem
import TyprCompanion.Management.AccessStore
import TyprCompanion.Management.StateFile

/-!
# Runs of the access store

Overlapping calls of the methods, the writes of the state, and stores opened from the file.

* `AccessMutation` — what a call changes, recorded in the order of the changes.
* `AccessRequest.Effect` — what a request does to the state when it is carried out.
* `AccessStore`, `AccessStore.step` — a store with its file, and the calls that wait.
* `AccessStore.step_cases` — what one event can do.
-/

namespace Typr

open Core

/-- A change that a call has made. -/
inductive AccessMutation where
  | userCreated (user name : JSString)
  | userDisabled (user : JSString) (disabled : Bool)
  | keyIssued (key owner secret : JSString)
  | keyRevoked (key : JSString)
  | keysRequired (required : Bool)
  deriving DecidableEq

/-- The change a request makes when it is carried out; authorizations make none. -/
def AccessRequest.mutation : AccessRequest → Option AccessMutation
  | .createUser name id _ => some (.userCreated id (JSString.trim name))
  | .setUserDisabled userId disabled => some (.userDisabled userId disabled)
  | .createApiKey userId _ id random _ =>
      some (.keyIssued id userId (AccessPlatform.newSecret random))
  | .revokeApiKey keyId _ => some (.keyRevoked keyId)
  | .setRequireApiKeys requireApiKeys => some (.keysRequired requireApiKeys)
  | .authorize _ _ => none

/-- What a request does to the state when it is carried out. -/
def AccessRequest.Effect (p : AccessPlatform) (request : AccessRequest) (s t : AccessState) : Prop :=
  match request with
  | .createUser name id now =>
      t = { s with users := s.users ++ [⟨id, JSString.trim name, false, toISOString now⟩] }
  | .setUserDisabled userId disabled => (∃ user, s.findUser userId = some user) ∧
      t = s.modifyUser userId fun user => { user with disabled }
  | .createApiKey userId _ id random now => (∃ user, s.findUser userId = some user) ∧
      ∃ label, t = { s with keys := s.keys ++ [p.newKey userId label id random now] }
  | .revokeApiKey keyId now => (∃ key ∈ s.keys, key.id = keyId) ∧
      t = s.modifyKey (fun key => key.id == keyId) (AccessPlatform.revoke now)
  | .setRequireApiKeys requireApiKeys => t = { s with requireApiKeys }
  | .authorize _ now => ∃ test, t = s.modifyKey test
      fun key => { key with lastUsedAt := some (toISOString now) }

theorem normalizeLabel_eq {value field normalized : JSString} {maxLength : Nat}
    (h : normalizeLabel value field maxLength = .ok normalized) : normalized = JSString.trim value := by
  unfold normalizeLabel at h
  dsimp only at h
  split at h
  · exact absurd h nofun
  · exact (Except.ok.inj h).symm

section Effects

variable {p : AccessPlatform} {s t : AccessState} {call : AccessCall}

theorem createUser_effect {name id : JSString} {now : Nat}
    (h : p.createUser name id now s = .persists t call) :
    t = { s with users := s.users ++ [⟨id, JSString.trim name, false, toISOString now⟩] } := by
  unfold AccessPlatform.createUser at h
  split at h
  · exact absurd h nofun
  next normalized hnormalized =>
    split at h
    · exact absurd h nofun
    · rw [← normalizeLabel_eq hnormalized]
      exact (AccessOutcome.persists.inj h).1.symm

theorem setUserDisabled_effect {userId : JSString} {disabled : Bool}
    (h : AccessPlatform.setUserDisabled userId disabled s = .persists t call) :
    (∃ user, s.findUser userId = some user) ∧
      t = s.modifyUser userId fun user => { user with disabled } := by
  unfold AccessPlatform.setUserDisabled at h
  split at h
  · exact absurd h nofun
  next user huser => exact ⟨⟨user, huser⟩, (AccessOutcome.persists.inj h).1.symm⟩

theorem createApiKey_effect {userId label id : JSString} {random : Bytes} {now : Nat}
    (h : p.createApiKey userId label id random now s = .persists t call) :
    (∃ user, s.findUser userId = some user) ∧
      ∃ label, t = { s with keys := s.keys ++ [p.newKey userId label id random now] } := by
  unfold AccessPlatform.createApiKey at h
  split at h
  · exact absurd h nofun
  next user huser =>
    split at h
    · exact absurd h nofun
    · split at h
      · exact absurd h nofun
      next normalized _ => exact ⟨⟨user, huser⟩, normalized, (AccessOutcome.persists.inj h).1.symm⟩

theorem revokeApiKey_effect {keyId : JSString} {now : Nat}
    (h : AccessPlatform.revokeApiKey keyId now s = .persists t call) :
    (∃ key ∈ s.keys, key.id = keyId) ∧
      t = s.modifyKey (fun key => key.id == keyId) (AccessPlatform.revoke now) := by
  unfold AccessPlatform.revokeApiKey at h
  split at h
  next hany =>
    obtain ⟨key, hkey, hid⟩ := List.any_eq_true.mp hany
    exact ⟨⟨key, hkey, eq_of_beq hid⟩, (AccessOutcome.persists.inj h).1.symm⟩
  · exact absurd h nofun

theorem setRequireApiKeys_effect {requireApiKeys : Bool}
    (h : AccessPlatform.setRequireApiKeys requireApiKeys s = .persists t call) :
    t = { s with requireApiKeys } := by
  unfold AccessPlatform.setRequireApiKeys at h
  split at h
  · exact absurd h nofun
  · exact (AccessOutcome.persists.inj h).1.symm

theorem authorizeKey_effect {secret : JSString} {now : Nat}
    (h : p.authorizeKey secret now s = .persists t call) :
    t = s.modifyKey (p.matchesSecret secret)
      fun key => { key with lastUsedAt := some (toISOString now) } := by
  unfold AccessPlatform.authorizeKey at h
  split at h
  · exact absurd h nofun
  · dsimp only at h
    split at h
    · exact absurd h nofun
    · split at h
      · exact absurd h nofun
      · split at h
        · exact (AccessOutcome.persists.inj h).1.symm
        · exact absurd h nofun

theorem authorize_effect {authorization : Option JSString} {now : Nat}
    (h : p.authorize authorization now s = .persists t call) :
    ∃ test, t = s.modifyKey test fun key => { key with lastUsedAt := some (toISOString now) } := by
  unfold AccessPlatform.authorize at h
  split at h
  · split at h <;> exact absurd h nofun
  · split at h <;> exact absurd h nofun
  · split at h
    · exact absurd h nofun
    · exact ⟨_, authorizeKey_effect h⟩

/-- **A call that waits has carried out its request.** -/
theorem effect_of_persists {request : AccessRequest} (h : p.call request s = .persists t call) :
    request.Effect p s t := by
  cases request with
  | createUser => exact createUser_effect h
  | setUserDisabled => exact setUserDisabled_effect h
  | createApiKey => exact createApiKey_effect h
  | revokeApiKey => exact revokeApiKey_effect h
  | setRequireApiKeys => exact setRequireApiKeys_effect h
  | authorize => exact authorize_effect h

end Effects

/-! ## Changed items -/

section ModifyFirst

variable {A B : Type} {test : A → Bool} {change : A → A}

theorem forall_modifyFirst {P : A → Prop} {items : List A} (h : ∀ a ∈ items, P a)
    (hchange : ∀ a, test a = true → P a → P (change a)) :
    ∀ a ∈ modifyFirst test change items, P a := by
  induction items with
  | nil => exact h
  | cons a rest ih =>
      obtain ⟨ha, hrest⟩ := List.forall_mem_cons.mp h
      unfold modifyFirst
      split
      next htest => exact List.forall_mem_cons.mpr ⟨hchange a htest ha, hrest⟩
      next => exact List.forall_mem_cons.mpr ⟨ha, ih hrest⟩

/-- What the change keeps, the list keeps. -/
theorem map_modifyFirst {f : A → B} (h : ∀ a, f (change a) = f a) (items : List A) :
    (modifyFirst test change items).map f = items.map f := by
  induction items with
  | nil => rfl
  | cons a rest ih =>
      unfold modifyFirst
      split
      next => rw [List.map_cons, h, List.map_cons]
      next => rw [List.map_cons, ih, List.map_cons]

/-- Where no two items share a key, the item of a key is the one that changes. -/
theorem forall_modifyFirst_key [BEq B] [LawfulBEq B] {P Q : A → Prop} (key : A → B) {b : B}
    {items : List A} (hnodup : (items.map key).Nodup) (h : ∀ a ∈ items, P a)
    (hchange : ∀ a ∈ items, key a = b → P a → Q (change a))
    (hkeep : ∀ a ∈ items, key a ≠ b → P a → Q a) :
    ∀ a ∈ modifyFirst (fun a => key a == b) change items, Q a := by
  induction items with
  | nil => exact fun a ha => nomatch ha
  | cons a rest ih =>
      obtain ⟨ha, hrest⟩ := List.forall_mem_cons.mp h
      obtain ⟨hchangea, hchange⟩ := List.forall_mem_cons.mp hchange
      obtain ⟨hkeepa, hkeep⟩ := List.forall_mem_cons.mp hkeep
      rw [List.map_cons, List.nodup_cons] at hnodup
      unfold modifyFirst
      split
      next htest =>
        have hkey : key a = b := eq_of_beq htest
        refine List.forall_mem_cons.mpr ⟨hchangea hkey ha, fun c hc => hkeep c hc ?_ (hrest c hc)⟩
        exact fun hc' => hnodup.1 (List.mem_map.mpr ⟨c, hc, hc'.trans hkey.symm⟩)
      next htest =>
        have hkey : key a ≠ b := fun heq => htest (beq_iff_eq.mpr heq)
        exact List.forall_mem_cons.mpr ⟨hkeepa hkey ha, ih hnodup.2 hrest hchange hkeep⟩

end ModifyFirst

theorem revokedAt_ne_nil (now : Nat) {key : StoredApiKey} (h : key.Stored) :
    some (key.revokedAt.getD (toISOString now)) ≠ some [] := by
  cases hrevoked : key.revokedAt with
  | none =>
      rw [Option.getD_none]
      exact fun hnil => toISOString_ne_nil now (Option.some.inj hnil)
  | some text =>
      rw [Option.getD_some, ← hrevoked]
      exact h.2

/-- Requests leave a state that a file can hold. -/
theorem AccessRequest.Effect.stored {p : AccessPlatform} {request : AccessRequest} {s t : AccessState}
    (h : request.Effect p s t) (hs : s.Stored) : t.Stored := by
  cases request with
  | createUser =>
      obtain rfl := h
      exact hs
  | setUserDisabled =>
      obtain ⟨-, rfl⟩ := h
      exact hs
  | createApiKey userId _ id random now =>
      obtain ⟨-, label, rfl⟩ := h
      have hnew : (p.newKey userId label id random now).Stored := ⟨nofun, nofun⟩
      exact List.forall_mem_append.mpr ⟨hs, List.forall_mem_singleton.mpr hnew⟩
  | revokeApiKey keyId now =>
      obtain ⟨-, rfl⟩ := h
      exact forall_modifyFirst hs fun key _ hkey => ⟨hkey.1, revokedAt_ne_nil now hkey⟩
  | setRequireApiKeys =>
      obtain rfl := h
      exact hs
  | authorize _ now =>
      obtain ⟨test, rfl⟩ := h
      refine forall_modifyFirst hs fun key _ hkey => ⟨fun hnil => ?_, hkey.2⟩
      exact toISOString_ne_nil now (Option.some.inj hnil)

/-- What a file holds: the value of its text, and the changes that led to it. -/
structure SavedState where
  text : Json
  log : List AccessMutation

/-- The state in a file. -/
def SavedState.decode (saved : SavedState) : Except JSString AccessState := validateState saved.text

/-- A call that waits for `persist`: for the promise of that number, or for none when nothing is
kept in a file. -/
structure PendingAccess where
  call : AccessCall
  promise : Option Nat
  mutation : Option AccessMutation

/-- A store, its writes and its file, and the calls that wait; the changes that led to its state; and
those whose calls have returned. -/
structure AccessStore where
  state : AccessState
  queue : WriteQueue SavedState
  calls : List PendingAccess
  log : List AccessMutation
  returned : List AccessMutation

inductive AccessEvent where
  /-- a method is called; `failure` is what the file system will make of its write -/
  | call (request : AccessRequest) (failure : WriteOp → Option Errno)
  /-- the writes go one operation on -/
  | advance
  /-- a call whose promise has settled returns or throws -/
  | resume (index : Nat)
  /-- the process ends, and a store is opened from the file -/
  | reopen

namespace AccessStore

/-- `open`: the state in the file, if there is one. -/
def openState : Option SavedState → Except JSString AccessState
  | none => .ok emptyState
  | some saved => saved.decode

/-- A store that was just opened. -/
def opened (found : Option SavedState) (state : AccessState) (returned : List AccessMutation) :
    AccessStore where
  state
  queue := PromiseChain.resolved (.found found)
  calls := []
  log := (found.map SavedState.log).getD []
  returned

/-- A change of the state, and the call of `persist` after it; without a `statePath` it does
nothing. -/
def persist (persistent : Bool) (state : AccessState) (call : AccessCall) (mutation : Option AccessMutation)
    (failure : WriteOp → Option Errno) (s : AccessStore) : AccessStore :=
  let log := s.log ++ mutation.toList
  { s with
    state
    log
    queue := if persistent = true then s.queue.append ⟨⟨state.toJson, log⟩, failure⟩ else s.queue
    calls := s.calls ++
      [⟨call, if persistent = true then some s.queue.tasks.length else none, mutation⟩] }

/-- How the promise that a call waits for settled. -/
def settledAs (promise : Option Nat) (s : AccessStore) : Option (Except Errno Unit) :=
  match promise with
  | none => some (.ok ())
  | some index => s.queue.settled[index]?.map Prod.snd

/-- What a waiting call returns or throws now. -/
def response (pending : PendingAccess) (s : AccessStore) : Option (Except Errno AccessResponse) :=
  match s.settledAs pending.promise with
  | none => none
  | some (.error e) => some (.error e)
  | some (.ok ()) => (pending.call.result s.state).map .ok

/-- A call is over. -/
def removeCall (index : Nat) (s : AccessStore) : AccessStore :=
  { s with calls := s.calls.eraseIdx index }

/-- A change whose call has returned. -/
def addReturned (mutation : Option AccessMutation) (s : AccessStore) : AccessStore :=
  { s with returned := s.returned ++ mutation.toList }

/-- One operation of the writes. -/
def advance (s : AccessStore) : Option AccessStore :=
  (PromiseChain.advance (persistTasks true) s.queue).map fun queue => { s with queue }

def step (p : AccessPlatform) (persistent : Bool) (s : AccessStore) : AccessEvent → Option AccessStore
  | .call request failure => match p.call request s.state with
      | .throws _ | .returns _ => some s
      | .persists state call => some (s.persist persistent state call request.mutation failure)
  | .advance => s.advance
  | .resume index => s.calls[index]?.bind fun pending =>
      match s.settledAs pending.promise with
      | none => none
      | some (.error _) => some (s.removeCall index)
      | some (.ok ()) => some ((s.removeCall index).addReturned pending.mutation)
  | .reopen => if persistent = true then match openState s.queue.world.file with
      | .error _ => none
      | .ok state => some (opened s.queue.world.file state s.returned)
    else none

/-- The runs of a store that was opened from `found`. -/
def system (p : AccessPlatform) (persistent : Bool) (found : Option SavedState) (state : AccessState) :
    System AccessStore AccessEvent := ⟨opened found state [], step p persistent⟩

/-- What one event can do. -/
theorem step_cases {p : AccessPlatform} {persistent : Bool} {s t : AccessStore} {e : AccessEvent}
    (h : step p persistent s e = some t) :
    t = s ∨
    (∃ request failure state call, e = .call request failure ∧
      p.call request s.state = .persists state call ∧
      t = s.persist persistent state call request.mutation failure) ∨
    (∃ queue, e = .advance ∧ PromiseChain.advance (persistTasks true) s.queue = some queue ∧
      t = { s with queue }) ∨
    (∃ index pending, e = .resume index ∧ s.calls[index]? = some pending ∧
      ((∃ error, s.settledAs pending.promise = some (.error error) ∧ t = s.removeCall index) ∨
        (s.settledAs pending.promise = some (.ok ()) ∧
          t = (s.removeCall index).addReturned pending.mutation))) ∨
    (∃ state, e = .reopen ∧ persistent = true ∧ openState s.queue.world.file = .ok state ∧
      t = opened s.queue.world.file state s.returned) := by
  cases e with
  | call request failure =>
      unfold step at h
      dsimp only at h
      split at h
      next => exact .inl (Option.some.inj h).symm
      next => exact .inl (Option.some.inj h).symm
      next state call hcall =>
        exact .inr (.inl ⟨request, failure, state, call, rfl, hcall, (Option.some.inj h).symm⟩)
  | advance =>
      obtain ⟨queue, hqueue, rfl⟩ := Option.map_eq_some_iff.mp h
      exact .inr (.inr (.inl ⟨queue, rfl, hqueue, rfl⟩))
  | resume index =>
      obtain ⟨pending, hpending, hresume⟩ := Option.bind_eq_some_iff.mp h
      refine .inr (.inr (.inr (.inl ⟨index, pending, rfl, hpending, ?_⟩)))
      split at hresume
      next => exact absurd hresume nofun
      next error herror => exact .inl ⟨error, herror, (Option.some.inj hresume).symm⟩
      next hok => exact .inr ⟨hok, (Option.some.inj hresume).symm⟩
  | reopen =>
      unfold step at h
      dsimp only at h
      obtain ⟨hpersistent, hopen⟩ := Option.ite_none_right_eq_some.mp h
      split at hopen
      next => exact absurd hopen nofun
      next state hstate =>
        exact .inr (.inr (.inr (.inr ⟨state, rfl, hpersistent, hstate,
          (Option.some.inj hopen).symm⟩)))

/-! ## The file of a store -/

/-- **The writes of a store keep its file**, in every state it reaches. -/
theorem keeps {p : AccessPlatform} {found : Option SavedState} {state : AccessState}
    {permitted : AccessStore → AccessEvent → Prop} (hfound : openState found = .ok state)
    {s : AccessStore} (h : (system p true found state).Reachable permitted s) :
    s.state.Stored ∧ ∃ found, WriteQueue.Keeps true found ⟨s.state.toJson, s.log⟩ s.queue := by
  have hopened : ∀ {found : Option SavedState} {state : AccessState},
      openState found = .ok state → state.Stored := by
    intro found state hopen
    cases found with
    | none =>
        obtain rfl := Except.ok.inj hopen
        exact fun key hkey => nomatch hkey
    | some saved => exact validateState_stored hopen
  let I (s : AccessStore) : Prop :=
    s.state.Stored ∧ ∃ found, WriteQueue.Keeps true found ⟨s.state.toJson, s.log⟩ s.queue
  refine h.invariant (I := I) ⟨hopened hfound, found, .resolved⟩ ?_
  rintro s e t - - ⟨hstored, found, hkeeps⟩ hstep
  obtain rfl | ⟨request, failure, state, call, rfl, hcall, rfl⟩ | ⟨queue, rfl, hqueue, rfl⟩ |
    ⟨index, pending, rfl, -, ⟨error, -, rfl⟩ | ⟨-, rfl⟩⟩ | ⟨state, rfl, -, hopen, rfl⟩ :=
      step_cases hstep
  · exact ⟨hstored, found, hkeeps⟩
  · have hstored' := (effect_of_persists hcall).stored hstored
    exact ⟨hstored', found, hkeeps.persist ⟨⟨state.toJson, s.log ++ request.mutation.toList⟩, failure⟩⟩
  · exact ⟨hstored, found, hkeeps.advance hqueue⟩
  · exact ⟨hstored, found, hkeeps⟩
  · exact ⟨hstored, found, hkeeps⟩
  · exact ⟨hopened hopen, s.queue.world.file, .resolved⟩

end AccessStore

end Typr
