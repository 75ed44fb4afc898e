import TyprCompanion.Js.Base64
import TyprCompanion.Js.Date

/-!
# The access store

Local users and API keys (`accessStore.ts`).

* `AccessState`, `AccessState.toJson`, `validateState` — the state, and how it travels through a file.
* `Request`, `AccessStore.call` — what the methods do until they wait for `persist`.
* `Call`, `Call.result` — the calls that wait, and what they return.
* **`validateState_toJson`** — a file decodes to the state that was written.
-/

namespace Typr

open Core

/-! ## Data -/

/-- `API_KEY_PREFIX` -/
def API_KEY_PREFIX : JSString := js "typr_"

structure ManagedUser where
  id : JSString
  name : JSString
  disabled : Bool
  createdAt : JSString
  deriving DecidableEq

/-- What the console shows of a key; `publicPrefix` is `prefix`. -/
structure ManagedApiKey where
  id : JSString
  userId : JSString
  label : JSString
  publicPrefix : JSString
  createdAt : JSString
  lastUsedAt : Option JSString
  revokedAt : Option JSString
  deriving DecidableEq

structure StoredApiKey extends ManagedApiKey where
  hash : JSString
  deriving DecidableEq

/-- The state, without its constant `version`. -/
structure AccessState where
  requireApiKeys : Bool
  users : List ManagedUser
  keys : List StoredApiKey
  deriving DecidableEq

structure ApiPrincipal where
  userId : JSString
  userName : JSString
  keyId : JSString
  deriving DecidableEq

inductive AuthorizationResult where
  | ok (principal : Option ApiPrincipal)
  | failed (message : JSString)
  deriving DecidableEq

structure AccessStoreError where
  status : Nat
  code : JSString
  message : JSString
  deriving DecidableEq

/-- The functions of the platform a store uses: SHA-256 of a text in UTF-8, case mapping, and
`Date.parse`. -/
structure AccessPlatform where
  sha256 : JSString → Bytes
  toLocaleLowerCase : JSString → JSString
  parseDate : JSString → Option Int

/-- `emptyState` -/
def emptyState : AccessState := ⟨false, [], []⟩

/-! ## The state in a file -/

/-- An optional field is left out when it is undefined. -/
def optionalField (name : String) (value : Option JSString) : List (JSString × Json) :=
  value.toList.map fun text => (js name, .string text)

def ManagedUser.toJson (user : ManagedUser) : Json :=
  .object [(js "id", .string user.id), (js "name", .string user.name),
    (js "disabled", .bool user.disabled), (js "createdAt", .string user.createdAt)]

def StoredApiKey.toJson (key : StoredApiKey) : Json :=
  .object ([(js "id", .string key.id), (js "userId", .string key.userId),
    (js "label", .string key.label), (js "prefix", .string key.publicPrefix),
    (js "hash", .string key.hash), (js "createdAt", .string key.createdAt)] ++
    (optionalField "lastUsedAt" key.lastUsedAt ++ optionalField "revokedAt" key.revokedAt))

/-- The value `JSON.stringify` writes. -/
def AccessState.toJson (state : AccessState) : Json :=
  .object [(js "version", .number (.integer 1) (js "1")),
    (js "requireApiKeys", .bool state.requireApiKeys),
    (js "users", .array (state.users.map ManagedUser.toJson)),
    (js "keys", .array (state.keys.map StoredApiKey.toJson))]

/-- The Boolean when `typeof value === "boolean"`. -/
def Json.bool? : Json → Option Bool
  | .bool b => some b
  | _ => none

/-- A field that may be left out: a string that is not empty, or nothing; `none` when it is no
string. -/
def optionalString (fields : List (JSString × Json)) (name : String) : Option (Option JSString) :=
  match Json.field fields (js name) with
  | none => some none
  | some (.string text) => some (if text = [] then none else some text)
  | some _ => none

/-- A required string. -/
def requiredString (fields : List (JSString × Json)) (name : String) : Option JSString :=
  (Json.field fields (js name)).bind Json.string?

/-- A user of `validateState` -/
def validateUser (value : Json) : Option ManagedUser := do
  let fields ← value.record?
  return { id := ← requiredString fields "id"
           name := ← requiredString fields "name"
           disabled := ← (Json.field fields (js "disabled")).bind Json.bool?
           createdAt := ← requiredString fields "createdAt" }

/-- A key of `validateState` -/
def validateKey (value : Json) : Option StoredApiKey := do
  let fields ← value.record?
  return { id := ← requiredString fields "id"
           userId := ← requiredString fields "userId"
           label := ← requiredString fields "label"
           publicPrefix := ← requiredString fields "prefix"
           hash := ← requiredString fields "hash"
           createdAt := ← requiredString fields "createdAt"
           lastUsedAt := ← optionalString fields "lastUsedAt"
           revokedAt := ← optionalString fields "revokedAt" }

/-- `value.version === 1` -/
def isVersionOne (fields : List (JSString × Json)) : Bool :=
  match Json.field fields (js "version") with
  | some (.number (.integer 1) _) => true
  | _ => false

/-- `validateState` -/
def validateState (value : Json) : Except JSString AccessState :=
  let header := do
    let fields ← value.record?
    let requireApiKeys ← (Json.field fields (js "requireApiKeys")).bind Json.bool?
    let users ← (Json.field fields (js "users")).bind Json.array?
    let keys ← (Json.field fields (js "keys")).bind Json.array?
    if isVersionOne fields = true then some (requireApiKeys, users, keys) else none
  match header with
  | none => .error (js "Typr Companion management state is invalid.")
  | some (requireApiKeys, users, keys) => match users.mapM validateUser with
      | none => .error (js "Typr Companion management user state is invalid.")
      | some users => match keys.mapM validateKey with
          | none => .error (js "Typr Companion management API-key state is invalid.")
          | some keys => .ok ⟨requireApiKeys, users, keys⟩

/-- The optional texts of a key are not empty. -/
def StoredApiKey.Stored (key : StoredApiKey) : Prop :=
  key.lastUsedAt ≠ some [] ∧ key.revokedAt ≠ some []

/-- A state a file can hold. -/
def AccessState.Stored (state : AccessState) : Prop := ∀ key ∈ state.keys, key.Stored

theorem validateUser_toJson (user : ManagedUser) : validateUser user.toJson = some user := rfl

/-- An optional text that is read back. -/
def readBack (value : Option JSString) : Option JSString :=
  value.bind fun text => if text = [] then none else some text

theorem readBack_of_ne {value : Option JSString} (h : value ≠ some []) : readBack value = value := by
  cases value with
  | none => rfl
  | some text => exact if_neg fun hnil => h (congrArg some hnil)

theorem validateKey_toJson {key : StoredApiKey} (h : key.Stored) :
    validateKey key.toJson = some key := by
  obtain ⟨hused, hrevoked⟩ := h
  have hread : validateKey key.toJson = some { key with
      lastUsedAt := readBack key.lastUsedAt
      revokedAt := readBack key.revokedAt } := by
    obtain ⟨⟨_, _, _, _, _, lastUsedAt, revokedAt⟩, _⟩ := key
    cases lastUsedAt <;> cases revokedAt <;> rfl
  rw [hread, readBack_of_ne hused, readBack_of_ne hrevoked]

/-- A list whose items are read back one by one. -/
theorem mapM_toJson {A C : Type} {toJson : A → C} {validate : C → Option A}
    (items : List A)
    (h : ∀ item ∈ items, validate (toJson item) = some item) :
    (items.map toJson).mapM validate = some items := by
  induction items with
  | nil => rfl
  | cons item rest ih =>
      obtain ⟨hitem, hrest⟩ := List.forall_mem_cons.mp h
      rw [List.map_cons, List.mapM_cons, hitem, ih hrest]
      rfl

/-- Every item of a validated list is a validated item. -/
theorem exists_of_mapM {A B : Type} {validate : A → Option B} {values : List A} {items : List B}
    (h : values.mapM validate = some items) :
    ∀ item ∈ items, ∃ value, validate value = some item := by
  induction values generalizing items with
  | nil =>
      obtain rfl : [] = items := by simpa using h
      exact fun item hitem => nomatch hitem
  | cons value rest ih =>
      simp only [List.mapM_cons, Option.bind_eq_bind, Option.bind_eq_some_iff, Option.pure_def,
        Option.some.injEq] at h
      obtain ⟨first, hfirst, others, hothers, rfl⟩ := h
      exact List.forall_mem_cons.mpr ⟨⟨value, hfirst⟩, ih hothers⟩

/-- **A file decodes to the state that was written.** -/
theorem validateState_toJson {state : AccessState} (h : state.Stored) :
    validateState state.toJson = .ok state := by
  have husers := mapM_toJson state.users fun user _ => validateUser_toJson user
  have hkeys := mapM_toJson state.keys fun key hkey => validateKey_toJson (h key hkey)
  change (match (state.users.map ManagedUser.toJson).mapM validateUser with
    | none => _
    | some users => match (state.keys.map StoredApiKey.toJson).mapM validateKey with
        | none => _
        | some keys => .ok ⟨state.requireApiKeys, users, keys⟩) = Except.ok state
  rw [husers, hkeys]

/-- A validated optional text is not empty. -/
theorem optionalString_ne {fields : List (JSString × Json)} {name : String} {value : Option JSString}
    (h : optionalString fields name = some value) : value ≠ some [] := by
  unfold optionalString at h
  split at h
  · obtain rfl := Option.some.inj h
    exact nofun
  next text _ =>
    rcases eq_or_ne text [] with hnil | hne
    · rw [if_pos hnil] at h
      obtain rfl := Option.some.inj h
      exact nofun
    · rw [if_neg hne] at h
      obtain rfl := Option.some.inj h
      exact fun hsome => hne (Option.some.inj hsome)
  · exact absurd h nofun

theorem validateKey_stored {value : Json} {key : StoredApiKey} (h : validateKey value = some key) :
    key.Stored := by
  simp only [validateKey, Option.bind_eq_bind, Option.bind_eq_some_iff, Option.pure_def,
    Option.some.injEq] at h
  obtain ⟨_, _, _, _, _, _, _, _, _, _, _, _, _, _, used, hused, revoked, hrevoked, rfl⟩ := h
  exact ⟨optionalString_ne hused, optionalString_ne hrevoked⟩

/-- What a file decodes to can be held by a file. -/
theorem validateState_stored {value : Json} {state : AccessState}
    (h : validateState value = .ok state) : state.Stored := by
  unfold validateState at h
  dsimp only at h
  split at h
  · exact absurd h nofun
  · split at h
    · exact absurd h nofun
    · split at h
      · exact absurd h nofun
      next keys hkeys =>
        obtain rfl := Except.ok.inj h
        intro key hkey
        obtain ⟨value, hvalue⟩ := exists_of_mapM hkeys key hkey
        exact validateKey_stored hvalue

/-! ## Calls -/

/-- The item of a key, where no two items share one. -/
theorem find?_of_nodup {A : Type} (key : A → JSString) {items : List A} {a : A}
    (hnodup : (items.map key).Nodup) (ha : a ∈ items) :
    (items.find? fun item => key item == key a) = some a := by
  induction items with
  | nil => exact nomatch ha
  | cons item rest ih =>
      rw [List.map_cons, List.nodup_cons] at hnodup
      rcases List.mem_cons.mp ha with rfl | hrest
      · exact List.find?_cons_of_pos (beq_self_eq_true _)
      · rw [List.find?_cons_of_neg, ih hnodup.2 hrest]
        intro heq
        exact hnodup.1 (List.mem_map.mpr ⟨a, hrest, (eq_of_beq heq).symm⟩)

/-- Change the first item a test holds of: the object that `find` returns. -/
def modifyFirst {A : Type} (test : A → Bool) (change : A → A) : List A → List A
  | [] => []
  | a :: rest => if test a = true then change a :: rest else a :: modifyFirst test change rest

/-- A call of a method, with the ids and the bytes it draws at random, and the time. -/
inductive AccessRequest where
  | createUser (name : JSString) (id : JSString) (now : Nat)
  | setUserDisabled (userId : JSString) (disabled : Bool)
  | createApiKey (userId label : JSString) (id : JSString) (random : Bytes) (now : Nat)
  | revokeApiKey (keyId : JSString) (now : Nat)
  | setRequireApiKeys (requireApiKeys : Bool)
  | authorize (authorization : Option JSString) (now : Nat)

/-- A call that waits for `persist`.  Users and keys are objects of the state, and a reference to one
is its index. -/
inductive AccessCall where
  | createUser (user : Nat)
  | setUserDisabled (user : Nat)
  | createApiKey (key : Nat) (secret : JSString)
  | revokeApiKey (key : Nat)
  | setRequireApiKeys
  | authorize (principal : ApiPrincipal)

inductive AccessResponse where
  | user (user : ManagedUser)
  | issued (key : ManagedApiKey) (secret : JSString)
  | key (key : ManagedApiKey)
  | done
  | authorization (result : AuthorizationResult)
  deriving DecidableEq

/-- What a call does before it waits: it throws, it returns, or it changes the state and waits for
`persist`. -/
inductive AccessOutcome where
  | throws (e : AccessStoreError)
  | returns (response : AccessResponse)
  | persists (state : AccessState) (call : AccessCall)

/-- `normalizeLabel` -/
def normalizeLabel (value field : JSString) (maxLength : Nat) : Except AccessStoreError JSString :=
  let normalized := JSString.trim value
  if normalized = [] ∨ maxLength < normalized.length ∨
      normalized.any (fun u => u ≤ 0x1F || u == 0x7F) = true then
    .error ⟨400, js "invalid-label", field ++ js " must contain 1-" ++ jsNat maxLength ++
      js " printable characters."⟩
  else .ok normalized

/-- A text that is there and not empty. -/
def truthy (value : Option JSString) : Bool := value.any fun text => !text.isEmpty

/-- The group of `/^Bearer\s+(typr_[A-Za-z0-9_-]+)$/u` -/
def bearerKey (authorization : JSString) : Option JSString :=
  let rest := authorization.drop 6
  let key : JSString := rest.dropWhile JSString.isWhiteSpace
  if authorization.startsWith (js "Bearer") = true ∧ rest ≠ key ∧
      JSString.startsWith key API_KEY_PREFIX = true ∧ key.drop 5 ≠ [] ∧
      (key.drop 5).all isBase64UrlUnit = true then some key
  else none

namespace AccessState

/-- `hasUsableKey` -/
def hasUsableKey (state : AccessState) : Bool :=
  state.keys.any fun key => !truthy key.revokedAt &&
    state.users.any fun user => user.id == key.userId && !user.disabled

/-- Change the user `find` returns. -/
def modifyUser (userId : JSString) (change : ManagedUser → ManagedUser) (state : AccessState) :
    AccessState :=
  { state with users := modifyFirst (fun user => user.id == userId) change state.users }

/-- Change the first key a test holds of. -/
def modifyKey (test : StoredApiKey → Bool) (change : StoredApiKey → StoredApiKey)
    (state : AccessState) : AccessState :=
  { state with keys := modifyFirst test change state.keys }

/-- `this.state.users.find` -/
def findUser (userId : JSString) (state : AccessState) : Option ManagedUser :=
  state.users.find? fun user => user.id == userId

/-- The index of the user `find` returns. -/
def userIndex (userId : JSString) (state : AccessState) : Nat :=
  state.users.findIdx fun user => user.id == userId

end AccessState

namespace AccessPlatform

variable (p : AccessPlatform)

/-- `hashSecret` -/
def hashSecret (secret : JSString) : JSString := toHex (p.sha256 secret)

/-- Whether the hash of a key is that of a secret: `timingSafeEqual` on the decoded digests. -/
def matchesSecret (secret : JSString) (key : StoredApiKey) : Bool :=
  fromHex key.hash == fromHex (p.hashSecret secret)

/-- `requireUser`, when it throws -/
def userNotFound : AccessStoreError := ⟨404, js "user-not-found", js "User was not found."⟩

def createUser (name id : JSString) (now : Nat) (state : AccessState) : AccessOutcome :=
  match normalizeLabel name (js "User name") 80 with
  | .error e => .throws e
  | .ok normalized =>
      if state.users.any (fun user =>
          p.toLocaleLowerCase user.name == p.toLocaleLowerCase normalized) = true then
        .throws ⟨409, js "user-name-conflict", js "A user with that name already exists."⟩
      else
        .persists { state with users := state.users ++ [⟨id, normalized, false, toISOString now⟩] }
          (.createUser state.users.length)

def setUserDisabled (userId : JSString) (disabled : Bool) (state : AccessState) : AccessOutcome :=
  match state.findUser userId with
  | none => .throws userNotFound
  | some _ => .persists (state.modifyUser userId fun user => { user with disabled })
      (.setUserDisabled (state.userIndex userId))

/-- The secret made of random bytes. -/
def newSecret (random : Bytes) : JSString := API_KEY_PREFIX ++ toBase64Url random

/-- The key of a new secret. -/
def newKey (userId label id : JSString) (random : Bytes) (now : Nat) : StoredApiKey where
  id
  userId
  label
  publicPrefix := (newSecret random).take 13
  createdAt := toISOString now
  lastUsedAt := none
  revokedAt := none
  hash := p.hashSecret (newSecret random)

def createApiKey (userId label id : JSString) (random : Bytes) (now : Nat) (state : AccessState) :
    AccessOutcome :=
  match state.findUser userId with
  | none => .throws userNotFound
  | some user =>
      if user.disabled = true then
        .throws ⟨409, js "user-disabled", js "Enable this user before creating an API key."⟩
      else match normalizeLabel label (js "API key label") 80 with
        | .error e => .throws e
        | .ok normalized =>
            .persists { state with keys := state.keys ++ [p.newKey userId normalized id random now] }
              (.createApiKey state.keys.length (newSecret random))

/-- `key.revokedAt ??= new Date().toISOString()` -/
def revoke (now : Nat) (key : StoredApiKey) : StoredApiKey :=
  { key with revokedAt := some (key.revokedAt.getD (toISOString now)) }

def revokeApiKey (keyId : JSString) (now : Nat) (state : AccessState) : AccessOutcome :=
  if state.keys.any (fun key => key.id == keyId) = true then
    .persists (state.modifyKey (fun key => key.id == keyId) (revoke now))
      (.revokeApiKey (state.keys.findIdx fun key => key.id == keyId))
  else .throws ⟨404, js "api-key-not-found", js "API key was not found."⟩

def setRequireApiKeys (requireApiKeys : Bool) (state : AccessState) : AccessOutcome :=
  if requireApiKeys = true ∧ state.hasUsableKey = false then
    .throws ⟨409, js "usable-api-key-required",
      js "Create an API key for an enabled user before requiring authentication."⟩
  else .persists { state with requireApiKeys } .setRequireApiKeys

/-- `!key.lastUsedAt || Date.now() - Date.parse(key.lastUsedAt) >= 60_000` -/
def usedLongAgo (now : Nat) (key : StoredApiKey) : Bool :=
  match key.lastUsedAt with
  | none => true
  | some text => text.isEmpty || (p.parseDate text).any fun used => decide (60000 ≤ (now : Int) - used)

/-- An answer of `authorize`. -/
def answer (result : AuthorizationResult) : AccessOutcome := .returns (.authorization result)

/-- `authorize` for the key that a header carries. -/
def authorizeKey (secret : JSString) (now : Nat) (state : AccessState) : AccessOutcome :=
  match state.keys.find? (p.matchesSecret secret) with
  | none => answer (.failed (js "The Typr Companion API key is invalid."))
  | some key =>
      let refused := answer (.failed (js "This Typr Companion API key is disabled or revoked."))
      match state.findUser key.userId with
      | none => refused
      | some user =>
          if (user.disabled || truthy key.revokedAt) = true then refused
          else
            let principal : ApiPrincipal := ⟨user.id, user.name, key.id⟩
            if p.usedLongAgo now key = true then
              .persists (state.modifyKey (p.matchesSecret secret)
                fun key => { key with lastUsedAt := some (toISOString now) }) (.authorize principal)
            else answer (.ok (some principal))

def authorize (authorization : Option JSString) (now : Nat) (state : AccessState) : AccessOutcome :=
  match authorization with
  | none | some [] =>
      if state.requireApiKeys = true then
        answer (.failed (js "A Typr Companion API key is required."))
      else answer (.ok none)
  | some header => match bearerKey header with
      | none => answer (.failed (js "Authorization must use a Typr Bearer API key."))
      | some secret => p.authorizeKey secret now state

/-- The methods, until they wait. -/
def call (request : AccessRequest) (state : AccessState) : AccessOutcome :=
  match request with
  | .createUser name id now => p.createUser name id now state
  | .setUserDisabled userId disabled => setUserDisabled userId disabled state
  | .createApiKey userId label id random now => p.createApiKey userId label id random now state
  | .revokeApiKey keyId now => revokeApiKey keyId now state
  | .setRequireApiKeys requireApiKeys => setRequireApiKeys requireApiKeys state
  | .authorize authorization now => p.authorize authorization now state

end AccessPlatform

/-- What a call returns when its `persist` is fulfilled. -/
def AccessCall.result (state : AccessState) : AccessCall → Option AccessResponse
  | .createUser user | .setUserDisabled user => state.users[user]?.map .user
  | .createApiKey key secret => state.keys[key]?.map fun key => .issued key.toManagedApiKey secret
  | .revokeApiKey key => state.keys[key]?.map fun key => .key key.toManagedApiKey
  | .setRequireApiKeys => some .done
  | .authorize principal => some (.authorization (.ok (some principal)))

/-- `snapshot`: the keys without their hashes. -/
structure AccessSnapshot where
  persistent : Bool
  requireApiKeys : Bool
  users : List ManagedUser
  keys : List ManagedApiKey

def AccessState.snapshot (persistent : Bool) (state : AccessState) : AccessSnapshot :=
  ⟨persistent, state.requireApiKeys, state.users, state.keys.map StoredApiKey.toManagedApiKey⟩

end Typr
