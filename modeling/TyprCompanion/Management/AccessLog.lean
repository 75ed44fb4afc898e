import TyprCompanion.Management.AccessRuns

/-!
# Access by the record of changes

Who may use the service, in terms of the changes made so far, and the state of a store against them.

* `created`, `issued`, `isDisabled`, `areRequired` — what the changes say of users and keys.
* `Live` — a key that was issued and not revoked, of an owner who is enabled.
* `Records` — the state of a store holds what the changes say.
* **`Records.effect`** — every request keeps it.
-/

namespace Typr

open Core

/-! ## What the changes say -/

namespace AccessMutation

/-- The users, with their names. -/
def created (log : List AccessMutation) : List (JSString × JSString) :=
  log.filterMap fun
    | .userCreated user name => some (user, name)
    | _ => none

/-- An issued key, its owner and its secret. -/
structure Issued where
  key : JSString
  owner : JSString
  secret : JSString
  deriving DecidableEq

/-- The keys. -/
def issued (log : List AccessMutation) : List Issued :=
  log.filterMap fun
    | .keyIssued key owner secret => some ⟨key, owner, secret⟩
    | _ => none

/-- Whether the last change to a user disabled them. -/
def isDisabled (user : JSString) (log : List AccessMutation) : Bool :=
  log.foldl (fun disabled change => match change with
    | .userDisabled user' disabled' => if user' = user then disabled' else disabled
    | _ => disabled) false

/-- Whether the last change of the requirement made it. -/
def areRequired (log : List AccessMutation) : Bool :=
  log.foldl (fun required change => match change with
    | .keysRequired required' => required'
    | _ => required) false

/-- **Live keys**: issued, not revoked, and of an owner who is enabled. -/
structure Live (log : List AccessMutation) (key : Issued) : Prop where
  issued : key ∈ issued log
  unrevoked : .keyRevoked key.key ∉ log
  enabled : isDisabled key.owner log = false

@[simp] theorem created_concat (log : List AccessMutation) (change : AccessMutation) :
    created (log ++ [change]) = created log ++ created [change] := List.filterMap_append

@[simp] theorem issued_concat (log : List AccessMutation) (change : AccessMutation) :
    issued (log ++ [change]) = issued log ++ issued [change] := List.filterMap_append

theorem isDisabled_concat (user : JSString) (log : List AccessMutation) (change : AccessMutation) :
    isDisabled user (log ++ [change]) = match change with
      | .userDisabled user' disabled => if user' = user then disabled else isDisabled user log
      | _ => isDisabled user log := by
  unfold isDisabled
  rw [List.foldl_append]
  rfl

theorem areRequired_concat (log : List AccessMutation) (change : AccessMutation) :
    areRequired (log ++ [change]) = match change with
      | .keysRequired required => required
      | _ => areRequired log := by
  unfold areRequired
  rw [List.foldl_append]
  rfl

/-- A user no change was made to is enabled. -/
theorem isDisabled_of_untouched {user : JSString} {log : List AccessMutation}
    (h : ∀ disabled, .userDisabled user disabled ∉ log) : isDisabled user log = false := by
  induction log using List.reverseRecOn with
  | nil => rfl
  | append_singleton log change ih =>
      have hlog := ih fun disabled hmem => h disabled (List.mem_append_left _ hmem)
      rw [isDisabled_concat]
      cases change with
      | userDisabled user' disabled =>
          refine (if_neg ?_).trans hlog
          rintro rfl
          exact h disabled (List.mem_append_right _ (List.mem_singleton_self _))
      | _ => exact hlog

theorem mem_created {user name : JSString} {log : List AccessMutation} :
    (user, name) ∈ created log ↔ .userCreated user name ∈ log := by
  unfold created
  rw [List.mem_filterMap]
  constructor
  · rintro ⟨change, hmem, heq⟩
    cases change with
    | userCreated =>
        obtain ⟨rfl, rfl⟩ := Prod.mk.inj (Option.some.inj heq)
        exact hmem
    | _ => exact absurd heq nofun
  · exact fun hmem => ⟨_, hmem, rfl⟩

theorem mem_issued {entry : Issued} {log : List AccessMutation} :
    entry ∈ issued log ↔ .keyIssued entry.key entry.owner entry.secret ∈ log := by
  unfold issued
  rw [List.mem_filterMap]
  constructor
  · rintro ⟨change, hmem, heq⟩
    cases change with
    | keyIssued =>
        obtain rfl := Option.some.inj heq
        exact hmem
    | _ => exact absurd heq nofun
  · exact fun hmem => ⟨_, hmem, rfl⟩

end AccessMutation

open AccessMutation

/-! ## The state against the changes -/

/-- What the users of a store are after these changes. -/
structure UserRecords (log : List AccessMutation) (users : List ManagedUser) : Prop where
  names : users.map (fun user => (user.id, user.name)) = created log
  disabled : ∀ user ∈ users, user.disabled = isDisabled user.id log
  ids : (users.map ManagedUser.id).Nodup
  known : ∀ user disabled, .userDisabled user disabled ∈ log → user ∈ users.map ManagedUser.id

/-- What the keys of a store are after these changes. -/
structure KeyRecords (p : AccessPlatform) (log : List AccessMutation) (keys : List StoredApiKey) :
    Prop where
  hashes : keys.map (fun key => (key.id, key.userId, key.hash))
    = (issued log).map fun entry => (entry.key, entry.owner, p.hashSecret entry.secret)
  revoked : ∀ key ∈ keys, key.revokedAt.isSome = true ↔ .keyRevoked key.id ∈ log
  ids : (keys.map fun key => key.id).Nodup
  known : ∀ key, .keyRevoked key ∈ log → key ∈ keys.map fun key => key.id
  secrets : ((issued log).map Issued.secret).Nodup
  drawn : ∀ entry ∈ issued log, ∃ random, random ≠ [] ∧
    entry.secret = AccessPlatform.newSecret random
  stored : ∀ key ∈ keys, key.Stored

/-- **What a store holds** after these changes. -/
structure Records (p : AccessPlatform) (log : List AccessMutation) (state : AccessState) : Prop where
  users : UserRecords log state.users
  keys : KeyRecords p log state.keys
  owners : ∀ key ∈ state.keys, key.userId ∈ state.users.map ManagedUser.id
  required : state.requireApiKeys = areRequired log

/-- A request draws an id, and a secret, that no user or key has. -/
def AccessRequest.Fresh (log : List AccessMutation) (state : AccessState) : AccessRequest → Prop
  | .createUser _ id _ => ∀ user ∈ state.users, user.id ≠ id
  | .createApiKey _ _ id random _ => (∀ key ∈ state.keys, key.id ≠ id) ∧
      (∀ entry ∈ issued log, entry.secret ≠ AccessPlatform.newSecret random) ∧ random.length = 32
  | _ => True

/-- A list that grows by an item with a new key. -/
theorem nodup_map_concat {A B : Type} {key : A → B} {items : List A} {item : A}
    (h : (items.map key).Nodup) (hnew : ∀ a ∈ items, key a ≠ key item) :
    ((items ++ [item]).map key).Nodup := by
  rw [List.map_append]
  refine List.nodup_append.mpr ⟨h, List.nodup_singleton _, ?_⟩
  intro b hb b' hb'
  obtain rfl : b' = key item := List.mem_singleton.mp hb'
  obtain ⟨a, ha, rfl⟩ := List.mem_map.mp hb
  exact hnew a ha

namespace UserRecords

variable {log : List AccessMutation} {users : List ManagedUser}

/-- A change to no user. -/
theorem other (h : UserRecords log users) {change : AccessMutation}
    (hchange : created [change] = [] ∧ ∀ user disabled, change ≠ .userDisabled user disabled) :
    UserRecords (log ++ [change]) users where
  names := by rw [created_concat, hchange.1, List.append_nil, h.names]
  disabled user huser := by
    rw [isDisabled_concat, h.disabled user huser]
    cases change with
    | userDisabled user' disabled => exact absurd rfl (hchange.2 user' disabled)
    | _ => rfl
  ids := h.ids
  known user disabled hmem := by
    rcases List.mem_append.mp hmem with hlog | hnew
    · exact h.known user disabled hlog
    · exact absurd (List.mem_singleton.mp hnew).symm (hchange.2 user disabled)

/-- A user who was not known before is enabled. -/
theorem new_enabled (h : UserRecords log users) {id : JSString}
    (hfresh : ∀ user ∈ users, user.id ≠ id) : isDisabled id log = false := by
  refine isDisabled_of_untouched fun disabled hmem => ?_
  obtain ⟨user, huser, heq⟩ := List.mem_map.mp (h.known id disabled hmem)
  exact hfresh user huser heq

theorem create (h : UserRecords log users) {id name createdAt : JSString}
    (hfresh : ∀ user ∈ users, user.id ≠ id) :
    UserRecords (log ++ [.userCreated id name]) (users ++ [⟨id, name, false, createdAt⟩]) where
  names := by
    rw [created_concat, ← h.names, List.map_append]
    rfl
  disabled := by
    refine List.forall_mem_append.mpr ⟨fun user huser => ?_, List.forall_mem_singleton.mpr ?_⟩
    · rw [isDisabled_concat]
      exact h.disabled user huser
    · rw [isDisabled_concat]
      exact (h.new_enabled hfresh).symm
  ids := nodup_map_concat h.ids hfresh
  known user disabled hmem := by
    have hlog : .userDisabled user disabled ∈ log := by simpa using hmem
    rw [List.map_append]
    exact List.mem_append_left _ (h.known user disabled hlog)

theorem disable (h : UserRecords log users) {id : JSString} {disabled : Bool}
    (hknown : id ∈ users.map ManagedUser.id) :
    UserRecords (log ++ [.userDisabled id disabled])
      (modifyFirst (fun user => user.id == id) (fun user => { user with disabled }) users) where
  names := by
    rw [map_modifyFirst, created_concat, h.names]
    · exact (List.append_nil _).symm
    · exact fun _ => rfl
  disabled := by
    refine forall_modifyFirst_key ManagedUser.id h.ids h.disabled
      (fun user _ hid _ => ?_) (fun user _ hid heq => ?_)
    · rw [isDisabled_concat]
      exact (if_pos hid.symm).symm
    · rw [isDisabled_concat, heq]
      exact (if_neg (Ne.symm hid)).symm
  ids := by
    rw [map_modifyFirst]
    · exact h.ids
    · exact fun _ => rfl
  known user disabled' hmem := by
    have huser : user ∈ users.map ManagedUser.id := by
      rcases List.mem_append.mp hmem with hlog | hnew
      · exact h.known user disabled' hlog
      · obtain ⟨rfl, -⟩ := AccessMutation.userDisabled.inj (List.mem_singleton.mp hnew)
        exact hknown
    rw [map_modifyFirst]
    · exact huser
    · exact fun _ => rfl

end UserRecords

namespace KeyRecords

variable {p : AccessPlatform} {log : List AccessMutation} {keys : List StoredApiKey}

/-- A change to no key. -/
theorem other (h : KeyRecords p log keys) {change : AccessMutation}
    (hchange : issued [change] = [] ∧ ∀ key, change ≠ .keyRevoked key) :
    KeyRecords p (log ++ [change]) keys := by
  have hissued : issued (log ++ [change]) = issued log := by
    rw [issued_concat, hchange.1, List.append_nil]
  have hrevoked : ∀ key, .keyRevoked key ∈ log ++ [change] ↔ .keyRevoked key ∈ log := by
    intro key
    rw [List.mem_append, List.mem_singleton]
    exact or_iff_left fun heq => hchange.2 key heq.symm
  exact
    { hashes := hissued ▸ h.hashes
      revoked := fun key hkey => (h.revoked key hkey).trans (hrevoked key.id).symm
      ids := h.ids
      known := fun key hmem => h.known key ((hrevoked key).mp hmem)
      secrets := hissued ▸ h.secrets
      drawn := hissued ▸ h.drawn
      stored := h.stored }

theorem issue (h : KeyRecords p log keys) {userId label id : JSString} {random : Bytes} {now : Nat}
    (hid : ∀ key ∈ keys, key.id ≠ id)
    (hsecret : ∀ entry ∈ issued log, entry.secret ≠ AccessPlatform.newSecret random)
    (hrandom : random ≠ []) :
    KeyRecords p (log ++ [.keyIssued id userId (AccessPlatform.newSecret random)])
      (keys ++ [p.newKey userId label id random now]) where
  hashes := by
    rw [issued_concat, List.map_append, List.map_append, h.hashes]
    rfl
  revoked := by
    have hrevoked : ∀ key, .keyRevoked key ∈
        log ++ [.keyIssued id userId (AccessPlatform.newSecret random)] ↔ .keyRevoked key ∈ log := by
      simp
    refine List.forall_mem_append.mpr ⟨fun key hkey => ?_, List.forall_mem_singleton.mpr ?_⟩
    · exact (h.revoked key hkey).trans (hrevoked key.id).symm
    · rw [hrevoked]
      constructor
      · exact fun hsome => nomatch hsome
      · intro hmem
        obtain ⟨key, hkey, heq⟩ := List.mem_map.mp (h.known _ hmem)
        exact absurd heq (hid key hkey)
  ids := nodup_map_concat h.ids hid
  known key hmem := by
    have hlog : .keyRevoked key ∈ log := by simpa using hmem
    rw [List.map_append]
    exact List.mem_append_left _ (h.known key hlog)
  secrets := by
    rw [issued_concat]
    exact nodup_map_concat h.secrets hsecret
  drawn := by
    rw [issued_concat]
    exact List.forall_mem_append.mpr ⟨h.drawn, List.forall_mem_singleton.mpr ⟨random, hrandom, rfl⟩⟩
  stored := by
    have hnew : (p.newKey userId label id random now).Stored := ⟨nofun, nofun⟩
    exact List.forall_mem_append.mpr ⟨h.stored, List.forall_mem_singleton.mpr hnew⟩

theorem revoke (h : KeyRecords p log keys) {id : JSString} {now : Nat}
    (hknown : id ∈ keys.map fun key => key.id) :
    KeyRecords p (log ++ [.keyRevoked id])
      (modifyFirst (fun key => key.id == id) (AccessPlatform.revoke now) keys) where
  hashes := by
    rw [map_modifyFirst, issued_concat, h.hashes]
    · exact congrArg _ (List.append_nil _).symm
    · exact fun _ => rfl
  revoked := by
    refine forall_modifyFirst_key (fun key : StoredApiKey => key.id) h.ids h.revoked
      (fun key _ hid _ => ?_) (fun key _ hid hiff => ?_)
    · refine ⟨fun _ => List.mem_append_right _ (List.mem_singleton.mpr ?_), fun _ => rfl⟩
      exact congrArg AccessMutation.keyRevoked hid
    · rw [hiff, List.mem_append, List.mem_singleton]
      exact (or_iff_left fun heq => hid (AccessMutation.keyRevoked.inj heq)).symm
  ids := by
    rw [map_modifyFirst]
    · exact h.ids
    · exact fun _ => rfl
  known key hmem := by
    have hkey : key ∈ keys.map fun key => key.id := by
      rcases List.mem_append.mp hmem with hlog | hnew
      · exact h.known key hlog
      · obtain rfl := AccessMutation.keyRevoked.inj (List.mem_singleton.mp hnew)
        exact hknown
    rw [map_modifyFirst]
    · exact hkey
    · exact fun _ => rfl
  secrets := by
    rw [issued_concat]
    exact (List.append_nil _).symm ▸ h.secrets
  drawn := by
    rw [issued_concat]
    exact (List.append_nil _).symm ▸ h.drawn
  stored := forall_modifyFirst h.stored fun key _ hkey => ⟨hkey.1, revokedAt_ne_nil now hkey⟩

/-- The use of a key. -/
theorem use (h : KeyRecords p log keys) {test : StoredApiKey → Bool} {now : Nat} :
    KeyRecords p log (modifyFirst test
      (fun key => { key with lastUsedAt := some (toISOString now) }) keys) where
  hashes := by
    rw [map_modifyFirst]
    · exact h.hashes
    · exact fun _ => rfl
  revoked := forall_modifyFirst h.revoked fun _ _ hkey => hkey
  ids := by
    rw [map_modifyFirst]
    · exact h.ids
    · exact fun _ => rfl
  known key hmem := by
    rw [map_modifyFirst]
    · exact h.known key hmem
    · exact fun _ => rfl
  secrets := h.secrets
  drawn := h.drawn
  stored := forall_modifyFirst h.stored fun key _ hkey =>
    ⟨fun hnil => toISOString_ne_nil now (Option.some.inj hnil), hkey.2⟩

end KeyRecords

namespace Records

variable {p : AccessPlatform} {log : List AccessMutation} {s t : AccessState}

/-- A new store. -/
theorem empty : Records p [] emptyState where
  users := ⟨rfl, List.forall_mem_nil _, List.nodup_nil, fun _ _ => nofun⟩
  keys := ⟨rfl, List.forall_mem_nil _, List.nodup_nil, fun _ => nofun, List.nodup_nil,
    List.forall_mem_nil _, List.forall_mem_nil _⟩
  owners := List.forall_mem_nil _
  required := rfl

/-- **Every request keeps the records.** -/
theorem effect (h : Records p log s) {request : AccessRequest} (hfresh : request.Fresh log s)
    (heffect : request.Effect p s t) : Records p (log ++ request.mutation.toList) t := by
  cases request with
  | createUser name id now =>
      obtain rfl := heffect
      refine ⟨h.users.create hfresh, h.keys.other ⟨rfl, fun _ => nofun⟩, fun key hkey => ?_, ?_⟩
      · rw [List.map_append]
        exact List.mem_append_left _ (h.owners key hkey)
      · exact h.required.trans (areRequired_concat log (.userCreated _ _)).symm
  | setUserDisabled userId disabled =>
      obtain ⟨⟨user, huser⟩, rfl⟩ := heffect
      have hid : user.id = userId := eq_of_beq (by simpa using List.find?_some huser)
      have hknown : userId ∈ s.users.map ManagedUser.id :=
        List.mem_map.mpr ⟨user, List.mem_of_find?_eq_some huser, hid⟩
      refine ⟨h.users.disable hknown, h.keys.other ⟨rfl, fun _ => nofun⟩, fun key hkey => ?_, ?_⟩
      · show key.userId ∈ (modifyFirst _ _ s.users).map ManagedUser.id
        rw [map_modifyFirst]
        · exact h.owners key hkey
        · exact fun _ => rfl
      · exact h.required.trans (areRequired_concat log (.userDisabled _ _)).symm
  | createApiKey userId label id random now =>
      obtain ⟨⟨user, huser⟩, label, rfl⟩ := heffect
      obtain ⟨hid, hsecret, hlength⟩ := hfresh
      have hrandom : random ≠ [] := List.ne_nil_of_length_pos (by omega)
      have huserId : user.id = userId := eq_of_beq (by simpa using List.find?_some huser)
      refine ⟨h.users.other ⟨rfl, fun _ _ => nofun⟩, h.keys.issue hid hsecret hrandom, ?_, ?_⟩
      · exact List.forall_mem_append.mpr ⟨h.owners, List.forall_mem_singleton.mpr
          (List.mem_map.mpr ⟨user, List.mem_of_find?_eq_some huser, huserId⟩)⟩
      · exact h.required.trans (areRequired_concat log (.keyIssued _ _ _)).symm
  | revokeApiKey keyId now =>
      obtain ⟨⟨key, hkey, hid⟩, rfl⟩ := heffect
      have hknown : keyId ∈ s.keys.map fun key => key.id := List.mem_map.mpr ⟨key, hkey, hid⟩
      refine ⟨h.users.other ⟨rfl, fun _ _ => nofun⟩, h.keys.revoke hknown, ?_, ?_⟩
      · exact forall_modifyFirst h.owners fun _ _ howner => howner
      · exact h.required.trans (areRequired_concat log (.keyRevoked _)).symm
  | setRequireApiKeys requireApiKeys =>
      obtain rfl := heffect
      exact ⟨h.users.other ⟨rfl, fun _ _ => nofun⟩, h.keys.other ⟨rfl, fun _ => nofun⟩, h.owners,
        (areRequired_concat log (.keysRequired _)).symm⟩
  | authorize authorization now =>
      obtain ⟨test, rfl⟩ := heffect
      rw [show log ++ (AccessRequest.authorize authorization now).mutation.toList = log from
        List.append_nil _]
      exact ⟨h.users, h.keys.use, forall_modifyFirst h.owners fun _ _ howner => howner, h.required⟩

end Records

end Typr
