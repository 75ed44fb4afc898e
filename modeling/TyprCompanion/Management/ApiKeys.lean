import Mathlib.Data.List.Infix
import TyprCompanion.Management.AccessLog

/-!
# API keys over whole runs

Whom `authorize` accepts, in every run of a store whose writes succeed, closed and opened again at any
time.

* `AccessOutcome.answer` — the answer of a call of `authorize`.
* `Records.authorize_iff` — in one state, the accepted texts are those of the live keys.
* `AccessStore.Sound` — the store, its file and the changes whose calls returned agree.
* **`AccessStore.authorizes`** — the keys that are accepted, in every run.
-/

namespace Typr

open Core AccessMutation

/-! ## Headers -/

/-- What the group of the pattern of a Bearer header matches. -/
def IsKeyText (text : JSString) : Prop :=
  JSString.startsWith text API_KEY_PREFIX = true ∧ text.drop 5 ≠ [] ∧
    (text.drop 5).all isBase64UrlUnit = true

theorem isKeyText_newSecret {random : Bytes} (h : random ≠ []) :
    IsKeyText (AccessPlatform.newSecret random) := by
  refine ⟨List.isPrefixOf_iff_prefix.mpr (List.prefix_append _ _), toBase64Url_ne_nil h, ?_⟩
  exact List.all_eq_true.mpr isBase64UrlUnit_of_mem

instance (text : JSString) : Decidable (IsKeyText text) :=
  inferInstanceAs (Decidable (_ ∧ _ ∧ _))

/-- A key follows the white space. -/
theorem dropWhile_key {blanks text : JSString} (hblanks : ∀ u ∈ blanks, JSString.isWhiteSpace u = true)
    (h : IsKeyText text) : (blanks ++ text).dropWhile JSString.isWhiteSpace = text := by
  rw [List.dropWhile_append_of_pos hblanks]
  obtain ⟨rest, rfl⟩ := List.isPrefixOf_iff_prefix.mp h.1
  rfl

theorem bearerKey_bearer (str : JSString) : bearerKey (js "Bearer " ++ str)
    = if IsKeyText (str.dropWhile JSString.isWhiteSpace) then
        some (str.dropWhile JSString.isWhiteSpace)
      else none := by
  have hdrop : (js "Bearer " ++ str).drop 6 = unit ' ' :: str := rfl
  have hrest : (unit ' ' :: str).dropWhile JSString.isWhiteSpace
      = str.dropWhile JSString.isWhiteSpace := rfl
  have hstart : JSString.startsWith (js "Bearer " ++ str) (js "Bearer") = true := rfl
  have hblank : unit ' ' :: str ≠ str.dropWhile JSString.isWhiteSpace := by
    intro heq
    have hlength := congrArg List.length heq
    have hle := (List.dropWhile_sublist JSString.isWhiteSpace (l := str)).length_le
    rw [List.length_cons] at hlength
    omega
  unfold bearerKey
  dsimp only
  rw [hdrop, hrest]
  exact if_congr ⟨fun h => h.2.2, fun h => ⟨hstart, hblank, h⟩⟩ rfl rfl

/-- The key that a Bearer header carries. -/
theorem bearerKey_iff {str text : JSString} :
    bearerKey (js "Bearer " ++ str) = some text ↔ IsKeyText text ∧
      ∃ blanks, (∀ u ∈ blanks, JSString.isWhiteSpace u = true) ∧ str = blanks ++ text := by
  rw [bearerKey_bearer]
  constructor
  · intro h
    obtain ⟨hkey, heq⟩ := Option.ite_none_right_eq_some.mp h
    obtain rfl := Option.some.inj heq
    refine ⟨hkey, str.takeWhile JSString.isWhiteSpace, fun u hu => ?_,
      List.takeWhile_append_dropWhile.symm⟩
    exact List.mem_takeWhile_imp hu
  · rintro ⟨hkey, blanks, hblanks, rfl⟩
    rw [dropWhile_key hblanks hkey, if_pos hkey]

/-! ## Answers -/

/-- The answer of a call of `authorize`, once its `persist` is fulfilled. -/
def AccessOutcome.answer : AccessOutcome → Option AuthorizationResult
  | .returns (.authorization result) => some result
  | .persists _ (.authorize principal) => some (.ok (some principal))
  | _ => none

theorem answer_failed {message : JSString} {principal : Option ApiPrincipal} :
    (AccessPlatform.answer (.failed message)).answer ≠ some (.ok principal) :=
  fun h => nomatch Option.some.inj h

/-- The keys `authorizeKey` accepts. -/
theorem authorizeKey_answer {p : AccessPlatform} {secret : JSString} {now : Nat} {s : AccessState}
    {principal : Option ApiPrincipal} :
    (p.authorizeKey secret now s).answer = some (.ok principal) ↔
      ∃ key user, s.keys.find? (p.matchesSecret secret) = some key ∧
        s.findUser key.userId = some user ∧ (user.disabled || truthy key.revokedAt) = false ∧
        principal = some ⟨user.id, user.name, key.id⟩ := by
  unfold AccessPlatform.authorizeKey
  constructor
  · intro h
    split at h
    next => exact absurd h answer_failed
    next key hkey =>
      dsimp only at h
      split at h
      next => exact absurd h answer_failed
      next user huser =>
        split at h
        next => exact absurd h answer_failed
        next hrefused =>
          refine ⟨key, user, hkey, huser, Bool.eq_false_iff.mpr hrefused, ?_⟩
          split at h
          next => exact (AuthorizationResult.ok.inj (Option.some.inj h)).symm
          next => exact (AuthorizationResult.ok.inj (Option.some.inj h)).symm
  · rintro ⟨key, user, hkey, huser, haccepted, rfl⟩
    rw [hkey]
    dsimp only
    rw [huser]
    dsimp only
    rw [if_neg (Bool.eq_false_iff.mp haccepted)]
    split
    next => rfl
    next => rfl

/-- What `authorize` makes of a header. -/
theorem authorize_some {p : AccessPlatform} {header : JSString} {now : Nat} {s : AccessState}
    (h : header ≠ []) : p.authorize (some header) now s
      = (bearerKey header).elim
          (AccessPlatform.answer (.failed (js "Authorization must use a Typr Bearer API key.")))
          (fun secret => p.authorizeKey secret now s) := by
  cases header with
  | nil => exact absurd rfl h
  | cons u rest =>
      unfold AccessPlatform.authorize
      dsimp only
      cases bearerKey (u :: rest) <;> rfl

/-- The headers `authorize` accepts. -/
theorem authorize_answer {p : AccessPlatform} {str : JSString} {now : Nat} {s : AccessState}
    {principal : Option ApiPrincipal} :
    (p.authorize (some (js "Bearer " ++ str)) now s).answer = some (.ok principal) ↔
      ∃ text, bearerKey (js "Bearer " ++ str) = some text ∧
        (p.authorizeKey text now s).answer = some (.ok principal) := by
  have hheader : js "Bearer " ++ str ≠ [] := List.append_ne_nil_of_left_ne_nil (by decide) _
  rw [authorize_some hheader]
  cases bearerKey (js "Bearer " ++ str) with
  | none =>
      constructor
      · exact fun h => absurd h answer_failed
      · rintro ⟨text, htext, -⟩
        cases htext
  | some text =>
      constructor
      · exact fun h => ⟨text, rfl, h⟩
      · rintro ⟨text', htext, h⟩
        obtain rfl := Option.some.inj htext
        exact h

/-- Requests without a key are accepted when none is required. -/
theorem authorize_none_answer {p : AccessPlatform} {now : Nat} {s : AccessState} :
    (p.authorize none now s).answer = some (.ok none) ↔ s.requireApiKeys = false := by
  unfold AccessPlatform.authorize
  dsimp only
  split
  next hrequired =>
    rw [hrequired]
    exact ⟨fun h => absurd h answer_failed, nofun⟩
  next hrequired => exact ⟨fun _ => Bool.eq_false_iff.mpr hrequired, fun _ => rfl⟩

/-! ## One state -/

/-- No other text among these has the digest of an issued secret. -/
def CollisionFree (p : AccessPlatform) (log : List AccessMutation) (str : JSString) : Prop :=
  ∀ text, text <:+ str → ∀ entry ∈ issued log,
    p.sha256 text = p.sha256 entry.secret → text = entry.secret

theorem matchesSecret_iff {p : AccessPlatform} {text secret : JSString} {key : StoredApiKey}
    (hhash : key.hash = p.hashSecret secret) :
    p.matchesSecret text key = true ↔ p.sha256 secret = p.sha256 text := by
  unfold AccessPlatform.matchesSecret
  rw [hhash, AccessPlatform.hashSecret, AccessPlatform.hashSecret, fromHex_toHex, fromHex_toHex,
    beq_iff_eq]

namespace Records

variable {p : AccessPlatform} {log : List AccessMutation} {s : AccessState}

/-- The record of a stored key. -/
theorem entry_of_key (h : Records p log s) {key : StoredApiKey} (hkey : key ∈ s.keys) :
    ∃ entry ∈ issued log, entry.key = key.id ∧ entry.owner = key.userId ∧
      key.hash = p.hashSecret entry.secret := by
  have hmem := List.mem_map_of_mem (f := fun key : StoredApiKey => (key.id, key.userId, key.hash)) hkey
  rw [h.keys.hashes] at hmem
  obtain ⟨entry, hentry, heq⟩ := List.mem_map.mp hmem
  obtain ⟨hid, hrest⟩ := Prod.mk.inj heq
  obtain ⟨howner, hhash⟩ := Prod.mk.inj hrest
  exact ⟨entry, hentry, hid, howner, hhash.symm⟩

/-- The stored key of a record. -/
theorem key_of_entry (h : Records p log s) {entry : Issued} (hentry : entry ∈ issued log) :
    ∃ key ∈ s.keys, key.id = entry.key ∧ key.userId = entry.owner ∧
      key.hash = p.hashSecret entry.secret := by
  have hmem := List.mem_map_of_mem
    (f := fun entry : Issued => (entry.key, entry.owner, p.hashSecret entry.secret)) hentry
  rw [← h.keys.hashes] at hmem
  obtain ⟨key, hkey, heq⟩ := List.mem_map.mp hmem
  obtain ⟨hid, hrest⟩ := Prod.mk.inj heq
  obtain ⟨howner, hhash⟩ := Prod.mk.inj hrest
  exact ⟨key, hkey, hid, howner, hhash⟩

/-- The user of an id. -/
theorem findUser_eq (h : Records p log s) {user : ManagedUser} (huser : user ∈ s.users) :
    s.findUser user.id = some user :=
  find?_of_nodup ManagedUser.id h.users.ids huser

/-- The key that a text leads to. -/
theorem find_secret (h : Records p log s) {str text : JSString} (hcollision : CollisionFree p log str)
    (hsuffix : text <:+ str) {key : StoredApiKey} :
    s.keys.find? (p.matchesSecret text) = some key ↔
      key ∈ s.keys ∧ ⟨key.id, key.userId, text⟩ ∈ issued log := by
  have hfound : ∀ {key : StoredApiKey}, s.keys.find? (p.matchesSecret text) = some key →
      key ∈ s.keys ∧ (⟨key.id, key.userId, text⟩ : Issued) ∈ issued log := by
    intro key hfind
    have hkey := List.mem_of_find?_eq_some hfind
    obtain ⟨entry, hentry, hid, howner, hhash⟩ := h.entry_of_key hkey
    have hmatches := (matchesSecret_iff hhash).mp (List.find?_some hfind)
    have htext := hcollision text hsuffix entry hentry hmatches.symm
    rw [← hid, ← howner, htext]
    exact ⟨hkey, hentry⟩
  refine ⟨hfound, ?_⟩
  rintro ⟨hkey, hentry⟩
  obtain ⟨stored, hstored, -, -, hhash⟩ := h.key_of_entry hentry
  have hsome : (s.keys.find? (p.matchesSecret text)).isSome = true :=
    List.find?_isSome.mpr ⟨stored, hstored, (matchesSecret_iff hhash).mpr rfl⟩
  obtain ⟨found, hfind⟩ := Option.isSome_iff_exists.mp hsome
  obtain ⟨hmem, hissued⟩ := hfound hfind
  have hsame : (⟨found.id, found.userId, text⟩ : Issued) = ⟨key.id, key.userId, text⟩ :=
    List.inj_on_of_nodup_map h.keys.secrets hissued hentry rfl
  have hid : found.id = key.id := congrArg Issued.key hsame
  rw [hfind]
  exact congrArg some (List.inj_on_of_nodup_map h.keys.ids hmem hkey hid)

/-- A revoked key carries the date of its revocation. -/
theorem truthy_revokedAt (h : Records p log s) {key : StoredApiKey} (hkey : key ∈ s.keys)
    (hrevoked : .keyRevoked key.id ∈ log) : truthy key.revokedAt = true := by
  obtain ⟨revokedAt, hsome⟩ := Option.isSome_iff_exists.mp ((h.keys.revoked key hkey).mpr hrevoked)
  have hne : revokedAt ≠ [] := fun hnil => (h.keys.stored key hkey).2 (hsome.trans (hnil ▸ rfl))
  rw [hsome]
  simpa [truthy] using hne

/-- **The accepted texts are the secrets of the live keys**, after any white space; the answer names the
key and its owner. -/
theorem authorize_iff (h : Records p log s) {str : JSString} (hcollision : CollisionFree p log str)
    (now : Nat) (principal : Option ApiPrincipal) :
    (p.authorize (some (js "Bearer " ++ str)) now s).answer = some (.ok principal) ↔
      ∃ entry name blanks, Live log entry ∧ .userCreated entry.owner name ∈ log ∧
        (∀ u ∈ blanks, JSString.isWhiteSpace u = true) ∧ str = blanks ++ entry.secret ∧
        principal = some ⟨entry.owner, name, entry.key⟩ := by
  rw [authorize_answer]
  constructor
  · rintro ⟨text, htext, hanswer⟩
    obtain ⟨-, blanks, hblanks, rfl⟩ := bearerKey_iff.mp htext
    obtain ⟨key, user, hkey, huser, haccepted, rfl⟩ := authorizeKey_answer.mp hanswer
    obtain ⟨hmem, hissued⟩ := (h.find_secret hcollision (List.suffix_append _ _)).mp hkey
    obtain ⟨henabled, hunrevoked⟩ := Bool.or_eq_false_iff.mp haccepted
    have husermem := List.mem_of_find?_eq_some huser
    have hid : user.id = key.userId := eq_of_beq (by simpa using List.find?_some huser)
    refine ⟨⟨key.id, key.userId, text⟩, user.name, blanks, ⟨hissued, ?_, ?_⟩, ?_, hblanks, rfl, ?_⟩
    · intro hrevoked
      exact absurd (h.truthy_revokedAt hmem hrevoked) (Bool.eq_false_iff.mp hunrevoked)
    · rw [← henabled, h.users.disabled user husermem, hid]
    · have hname := List.mem_map_of_mem (f := fun user : ManagedUser => (user.id, user.name)) husermem
      rw [h.users.names, mem_created] at hname
      exact hid ▸ hname
    · rw [hid]
  · rintro ⟨entry, name, blanks, hlive, hname, hblanks, rfl, rfl⟩
    obtain ⟨random, hrandom, hsecret⟩ := h.keys.drawn entry hlive.issued
    have hkeyText : IsKeyText entry.secret := hsecret ▸ isKeyText_newSecret hrandom
    obtain ⟨key, hkey, hid, howner, -⟩ := h.key_of_entry hlive.issued
    have hissued : (⟨key.id, key.userId, entry.secret⟩ : Issued) ∈ issued log := by
      rw [hid, howner]
      exact hlive.issued
    rw [← mem_created, ← h.users.names] at hname
    obtain ⟨user, huser, heq⟩ := List.mem_map.mp hname
    obtain ⟨huserId, rfl⟩ := Prod.mk.inj heq
    refine ⟨entry.secret, bearerKey_iff.mpr ⟨hkeyText, blanks, hblanks, rfl⟩,
      authorizeKey_answer.mpr ⟨key, user,
        (h.find_secret hcollision (List.suffix_append _ _)).mpr ⟨hkey, hissued⟩, ?_, ?_, ?_⟩⟩
    · rw [howner, ← huserId]
      exact h.findUser_eq huser
    · have hrevoked : key.revokedAt = none := by
        rw [← Option.not_isSome_iff_eq_none, h.keys.revoked key hkey, hid]
        exact hlive.unrevoked
      rw [h.users.disabled user huser, huserId, hlive.enabled, hrevoked]
      rfl
    · rw [huserId, hid]

/-- A revoked key is never accepted, whatever the header. -/
theorem revoked_refused (h : Records p log s) {key : JSString} (hrevoked : .keyRevoked key ∈ log)
    (authorization : Option JSString) (now : Nat) {principal : ApiPrincipal}
    (hanswer : (p.authorize authorization now s).answer = some (.ok (some principal))) :
    principal.keyId ≠ key := by
  unfold AccessPlatform.authorize at hanswer
  have hnone : (if s.requireApiKeys = true then
      AccessPlatform.answer (.failed (js "A Typr Companion API key is required."))
      else AccessPlatform.answer (.ok none)).answer ≠ some (.ok (some principal)) := by
    split
    next => exact answer_failed
    next => exact fun heq => nomatch AuthorizationResult.ok.inj (Option.some.inj heq)
  split at hanswer
  next => exact absurd hanswer hnone
  next => exact absurd hanswer hnone
  next =>
    split at hanswer
    next => exact absurd hanswer answer_failed
    next text _ =>
      obtain ⟨stored, user, hfind, -, haccepted, heq⟩ := authorizeKey_answer.mp hanswer
      obtain rfl := Option.some.inj heq
      rintro rfl
      have hunrevoked := (Bool.or_eq_false_iff.mp haccepted).2
      have htruthy := h.truthy_revokedAt (List.mem_of_find?_eq_some hfind) hrevoked
      exact absurd htruthy (Bool.eq_false_iff.mp hunrevoked)

end Records

/-! ## Runs -/

/-- A saved state holds what its changes say. -/
def SavedState.Sound (p : AccessPlatform) (saved : SavedState) : Prop :=
  ∃ state, saved.text = state.toJson ∧ Records p saved.log state

/-- The call that hands out a secret is the one that made its key. -/
theorem createApiKey_call {p : AccessPlatform} {request : AccessRequest} {s t : AccessState}
    {index : Nat} {secret : JSString}
    (h : p.call request s = .persists t (.createApiKey index secret)) :
    ∃ userId label id random now, request = .createApiKey userId label id random now ∧
      index = s.keys.length ∧ secret = AccessPlatform.newSecret random := by
  cases request with
  | createUser name id now =>
      change p.createUser name id now s = _ at h
      unfold AccessPlatform.createUser at h
      split at h
      · exact absurd h nofun
      · split at h <;> exact absurd h nofun
  | setUserDisabled userId disabled =>
      change AccessPlatform.setUserDisabled userId disabled s = _ at h
      unfold AccessPlatform.setUserDisabled at h
      split at h <;> exact absurd h nofun
  | createApiKey userId label id random now =>
      change p.createApiKey userId label id random now s = _ at h
      unfold AccessPlatform.createApiKey at h
      split at h
      · exact absurd h nofun
      · split at h
        · exact absurd h nofun
        · split at h
          · exact absurd h nofun
          · obtain ⟨hindex, hsecret⟩ := AccessCall.createApiKey.inj (AccessOutcome.persists.inj h).2
            exact ⟨userId, label, id, random, now, rfl, hindex.symm, hsecret.symm⟩
  | revokeApiKey keyId now =>
      change AccessPlatform.revokeApiKey keyId now s = _ at h
      unfold AccessPlatform.revokeApiKey at h
      split at h <;> exact absurd h nofun
  | setRequireApiKeys requireApiKeys =>
      change AccessPlatform.setRequireApiKeys requireApiKeys s = _ at h
      unfold AccessPlatform.setRequireApiKeys at h
      split at h <;> exact absurd h nofun
  | authorize authorization now =>
      change p.authorize authorization now s = _ at h
      unfold AccessPlatform.authorize at h
      split at h
      · split at h <;> exact absurd h nofun
      · split at h <;> exact absurd h nofun
      · split at h
        · exact absurd h nofun
        · unfold AccessPlatform.authorizeKey at h
          split at h
          · exact absurd h nofun
          · dsimp only at h
            split at h
            · exact absurd h nofun
            · split at h
              · exact absurd h nofun
              · split at h <;> exact absurd h nofun

namespace AccessStore

/-- All writes succeed, and what is drawn at random is new. -/
def Lucky (s : AccessStore) : AccessEvent → Prop
  | .call request failure => (∀ op, failure op = none) ∧ request.Fresh s.log s.state
  | _ => True

/-- What was found in the file, and the writes. -/
def texts (found : Option SavedState) (s : AccessStore) : List SavedState :=
  found.toList ++ s.queue.tasks.map Write.serialized

/-- A waiting call made its change; it waits for a write that has it, and hands out its own key. -/
structure Waits (persistent : Bool) (s : AccessStore) (pending : PendingAccess) : Prop where
  made : ∀ change ∈ pending.mutation, change ∈ s.log
  written : match pending.promise with
    | none => persistent = false
    | some index => ∃ w, s.queue.tasks[index]? = some w ∧
        ∀ change ∈ pending.mutation, change ∈ w.serialized.log
  issues : ∀ index secret, pending.call = .createApiKey index secret → ∃ id owner,
    pending.mutation = some (.keyIssued id owner secret) ∧
      (issued s.log)[index]? = some ⟨id, owner, secret⟩

/-- **The store, its file and the changes agree.** -/
structure Sound (p : AccessPlatform) (persistent : Bool) (found : Option SavedState)
    (s : AccessStore) : Prop where
  records : Records p s.log s.state
  lawful : PromiseChain.Lawful (persistTasks true) s.queue
  filed : WriteQueue.Filed found s.queue
  succeed : ∀ w ∈ s.queue.tasks, w.Succeeds true
  sound : ∀ saved ∈ s.texts found, saved.Sound p
  grows : (s.texts found).Pairwise fun a b => a.log <+: b.log
  upTo : ∀ saved ∈ s.texts found, saved.log <+: s.log
  waits : ∀ pending ∈ s.calls, s.Waits persistent pending
  returned : ∀ change ∈ s.returned, change ∈ s.log
  kept : persistent = true → ∀ change ∈ s.returned,
    ∃ saved ∈ found.toList ++ s.queue.world.contents, change ∈ saved.log

variable {p : AccessPlatform} {persistent : Bool} {found : Option SavedState} {s t : AccessStore}

/-- A store that was just opened. -/
theorem Sound.opened {state : AccessState} {returned : List AccessMutation}
    (hopen : openState found = .ok state) (hfound : ∀ saved ∈ found, saved.Sound p)
    (hreturned : ∀ change ∈ returned, ∃ saved ∈ found, change ∈ saved.log) :
    Sound p persistent found (opened found state returned) where
  records := by
    cases found with
    | none =>
        obtain rfl := Except.ok.inj hopen
        exact .empty
    | some saved =>
        obtain ⟨written, htext, hrecords⟩ := hfound saved rfl
        have hdecode : openState (some saved) = .ok written := by
          show validateState saved.text = _
          rw [htext]
          exact validateState_toJson hrecords.keys.stored
        obtain rfl : written = state := Except.ok.inj (hdecode.symm.trans hopen)
        exact hrecords
  lawful := .resolved _ _
  filed := .resolved found
  succeed w hw := absurd hw List.not_mem_nil
  sound saved hsaved := hfound saved (by simpa [texts, AccessStore.opened, PromiseChain.tasks,
    PromiseChain.resolved] using hsaved)
  grows := by
    cases found with
    | none => exact List.Pairwise.nil
    | some saved => exact List.pairwise_singleton _ _
  upTo saved hsaved := by
    cases found with
    | none => exact absurd hsaved List.not_mem_nil
    | some saved' =>
        obtain rfl := List.mem_singleton.mp hsaved
        exact List.prefix_rfl
  waits pending hpending := absurd hpending List.not_mem_nil
  returned change hchange := by
    obtain ⟨saved, hsaved, hmem⟩ := hreturned change hchange
    obtain rfl := Option.mem_def.mp hsaved
    exact hmem
  kept _ change hchange := by
    obtain ⟨saved, hsaved, hmem⟩ := hreturned change hchange
    exact ⟨saved, List.mem_append_left _ (Option.mem_toList.mpr hsaved), hmem⟩

/-- What a list begins with stays where it is. -/
theorem getElem?_of_prefix {A : Type} {items more : List A} (h : items <+: more) {i : Nat} {a : A}
    (hi : items[i]? = some a) : more[i]? = some a := by
  obtain ⟨rest, rfl⟩ := h
  rw [List.getElem?_append_left (List.getElem?_eq_some_iff.mp hi).1, hi]

/-- Later changes and writes do not affect a waiting call. -/
theorem Waits.mono {pending : PendingAccess} (h : s.Waits persistent pending)
    (hlog : s.log <+: t.log) (htasks : s.queue.tasks <+: t.queue.tasks) :
    t.Waits persistent pending where
  made change hchange := hlog.subset (h.made change hchange)
  written := by
    have hwritten := h.written
    split at hwritten
    next hnone => exact hwritten
    next index hsome =>
      obtain ⟨w, hw, hmem⟩ := hwritten
      exact ⟨w, getElem?_of_prefix htasks hw, hmem⟩
  issues index secret hcall := by
    obtain ⟨id, owner, hmutation, hissued⟩ := h.issues index secret hcall
    exact ⟨id, owner, hmutation, getElem?_of_prefix (hlog.filterMap _) hissued⟩

/-- The call that has just carried out a request. -/
theorem waits_new (h : Sound p persistent found s) {request : AccessRequest}
    {failure : WriteOp → Option Errno} {state : AccessState} {call : AccessCall}
    (hcall : p.call request s.state = .persists state call) :
    (s.persist persistent state call request.mutation failure).Waits persistent
      ⟨call, if persistent = true then some s.queue.tasks.length else none, request.mutation⟩ where
  made change hchange := List.mem_append_right _ (Option.mem_toList.mpr hchange)
  written := by
    cases persistent with
    | false => rfl
    | true =>
        refine ⟨⟨⟨state.toJson, s.log ++ request.mutation.toList⟩, failure⟩, ?_, fun change hchange => ?_⟩
        · show (s.queue.append _).tasks[s.queue.tasks.length]? = _
          rw [PromiseChain.tasks_append, List.getElem?_concat_length]
        · exact List.mem_append_right _ (Option.mem_toList.mpr hchange)
  issues index secret hissues := by
    obtain rfl : call = .createApiKey index secret := hissues
    obtain ⟨userId, label, id, random, now, rfl, rfl, rfl⟩ := createApiKey_call hcall
    refine ⟨id, userId, rfl, ?_⟩
    have hlength : s.state.keys.length = (issued s.log).length := by
      have hhashes := congrArg List.length h.records.keys.hashes
      rwa [List.length_map, List.length_map] at hhashes
    show (issued (s.log ++ [_]))[s.state.keys.length]? = _
    rw [issued_concat, hlength]
    exact List.getElem?_concat_length

/-- A call has carried out its request and persists the state. -/
theorem Sound.persist (h : Sound p persistent found s) {request : AccessRequest}
    {failure : WriteOp → Option Errno} {state : AccessState} {call : AccessCall}
    (hsucceeds : ∀ op, failure op = none) (hfresh : request.Fresh s.log s.state)
    (hcall : p.call request s.state = .persists state call) :
    Sound p persistent found (s.persist persistent state call request.mutation failure) := by
  have hrecords := h.records.effect hfresh (effect_of_persists hcall)
  have hlog : s.log <+: s.log ++ request.mutation.toList := List.prefix_append _ _
  have hwaits : ∀ pending ∈ (s.persist persistent state call request.mutation failure).calls,
      (s.persist persistent state call request.mutation failure).Waits persistent pending := by
    refine List.forall_mem_append.mpr ⟨fun pending hpending => ?_,
      List.forall_mem_singleton.mpr (waits_new h hcall)⟩
    refine (h.waits pending hpending).mono hlog ?_
    show s.queue.tasks <+: (if persistent = true then s.queue.append _ else s.queue).tasks
    split
    · rw [PromiseChain.tasks_append]
      exact List.prefix_append _ _
    · exact List.prefix_rfl
  have hupTo : ∀ saved ∈ s.texts found, saved.log <+: s.log ++ request.mutation.toList :=
    fun saved hsaved => (h.upTo saved hsaved).trans hlog
  have hreturned : ∀ change ∈ s.returned, change ∈ s.log ++ request.mutation.toList :=
    fun change hchange => List.mem_append_left _ (h.returned change hchange)
  cases persistent with
  | false => exact ⟨hrecords, h.lawful, h.filed, h.succeed, h.sound, h.grows, hupTo, hwaits, hreturned,
      nofun⟩
  | true =>
      let saved : SavedState := ⟨state.toJson, s.log ++ request.mutation.toList⟩
      have htexts : (s.persist true state call request.mutation failure).texts found
          = s.texts found ++ [saved] := by
        show found.toList ++ (s.queue.append ⟨saved, failure⟩).tasks.map Write.serialized = _
        rw [PromiseChain.tasks_append, List.map_append, ← List.append_assoc]
        rfl
      refine ⟨hrecords, h.lawful.append _ _, h.filed.append _, ?_, ?_, ?_, ?_, hwaits, hreturned,
        h.kept⟩
      · show ∀ w ∈ (s.queue.append ⟨saved, failure⟩).tasks, w.Succeeds true
        rw [PromiseChain.tasks_append]
        refine List.forall_mem_append.mpr ⟨h.succeed, List.forall_mem_singleton.mpr ?_⟩
        exact (Write.succeeds_iff true _).mpr fun op _ => hsucceeds op
      · rw [htexts]
        exact List.forall_mem_append.mpr ⟨h.sound,
          List.forall_mem_singleton.mpr ⟨state, rfl, hrecords⟩⟩
      · rw [htexts]
        refine List.pairwise_append.mpr ⟨h.grows, List.pairwise_singleton _ _, ?_⟩
        intro a ha b hb
        obtain rfl := List.mem_singleton.mp hb
        exact hupTo a ha
      · rw [htexts]
        exact List.forall_mem_append.mpr ⟨hupTo, List.forall_mem_singleton.mpr List.prefix_rfl⟩

/-- The writes go on. -/
theorem Sound.advance (h : Sound p persistent found s) {queue : WriteQueue SavedState}
    (hqueue : PromiseChain.advance (persistTasks true) s.queue = some queue) :
    Sound p persistent found { s with queue } := by
  have htasks := PromiseChain.tasks_advance _ hqueue
  have htexts : ({ s with queue } : AccessStore).texts found = s.texts found := by
    show found.toList ++ queue.tasks.map Write.serialized = _
    rw [htasks]
    rfl
  refine ⟨h.records, h.lawful.advance _ hqueue, h.filed.advance hqueue, htasks ▸ h.succeed, ?_, ?_, ?_,
    fun pending hpending => (h.waits pending hpending).mono List.prefix_rfl ?_, h.returned, ?_⟩
  · rw [htexts]
    exact h.sound
  · rw [htexts]
    exact h.grows
  · rw [htexts]
    exact h.upTo
  · exact htasks ▸ List.prefix_rfl
  · intro hpersistent change hchange
    obtain ⟨saved, hsaved, hmem⟩ := h.kept hpersistent change hchange
    refine ⟨saved, ?_, hmem⟩
    rcases List.mem_append.mp hsaved with hfound | hcontents
    · exact List.mem_append_left _ hfound
    · exact List.mem_append_right _ (WriteQueue.contents_advance hqueue hcontents)

/-- A call is over. -/
theorem Sound.removeCall (h : Sound p persistent found s) (index : Nat) :
    Sound p persistent found (s.removeCall index) where
  records := h.records
  lawful := h.lawful
  filed := h.filed
  succeed := h.succeed
  sound := h.sound
  grows := h.grows
  upTo := h.upTo
  waits pending hpending := (h.waits pending (List.mem_of_mem_eraseIdx hpending)).mono
    List.prefix_rfl List.prefix_rfl
  returned := h.returned
  kept := h.kept

/-- The promise of a waiting call is not rejected. -/
theorem Sound.settledAs_ok (h : Sound p persistent found s) {promise : Option Nat}
    {r : Except Errno Unit} (hsettled : s.settledAs promise = some r) : r = .ok () := by
  cases promise with
  | none => exact (Option.some.inj hsettled).symm
  | some index =>
      obtain ⟨⟨w, r⟩, hentry, rfl⟩ := Option.map_eq_some_iff.mp hsettled
      exact h.lawful.fulfilled _ h.succeed hentry

/-- A call that returns: its change is in the file. -/
theorem Sound.addReturned (h : Sound p persistent found s) {pending : PendingAccess}
    (hpending : pending ∈ s.calls) (hsettled : s.settledAs pending.promise = some (.ok ()))
    (index : Nat) :
    Sound p persistent found ((s.removeCall index).addReturned pending.mutation) := by
  have hremoved := h.removeCall index
  have hwaits := h.waits pending hpending
  refine ⟨h.records, h.lawful, h.filed, h.succeed, h.sound, h.grows, h.upTo,
    fun other hother => (hremoved.waits other hother).mono List.prefix_rfl List.prefix_rfl, ?_, ?_⟩
  · refine List.forall_mem_append.mpr ⟨h.returned, fun change hchange => ?_⟩
    exact hwaits.made change (Option.mem_toList.mp hchange)
  · intro hpersistent
    refine List.forall_mem_append.mpr ⟨h.kept hpersistent, fun change hchange => ?_⟩
    have hwritten := hwaits.written
    split at hwritten
    next => exact absurd (hpersistent.symm.trans hwritten) nofun
    next number hnumber =>
      obtain ⟨w, hw, hmem⟩ := hwritten
      rw [hnumber] at hsettled
      obtain ⟨⟨v, r⟩, hentry, rfl⟩ := Option.map_eq_some_iff.mp hsettled
      have hv : s.queue.tasks[number]? = some v := by
        refine getElem?_of_prefix (PromiseChain.settled_advance s.queue) ?_
        rw [List.getElem?_map, hentry]
        rfl
      obtain rfl : w = v := Option.some.inj (hw.symm.trans hv)
      refine ⟨w.serialized, List.mem_append_right _ ?_, hmem change (Option.mem_toList.mp hchange)⟩
      show w.serialized ∈ s.queue.world.contents
      rw [h.filed.contents]
      exact List.mem_append_left _ (WriteQueue.mem_fulfilled (List.mem_of_getElem? hentry))

/-- What the file holds: the last text that reached it. -/
theorem Sound.file_eq (h : Sound p persistent found s) :
    s.queue.world.file = (found.toList ++ s.queue.world.contents).getLast? := by
  rw [h.filed.file, List.getLast?_append]
  cases found <;> rfl

/-- What reached the file is among the texts. -/
theorem Sound.archive_sublist (h : Sound p persistent found s) :
    (found.toList ++ s.queue.world.contents).Sublist (s.texts found) :=
  (List.Sublist.refl _).append h.filed.contents_sublist

/-- **A store that is opened again** has all the changes whose calls returned. -/
theorem Sound.reopen (h : Sound p persistent found s) (hpersistent : persistent = true)
    {state : AccessState} (hopen : openState s.queue.world.file = .ok state) :
    Sound p persistent s.queue.world.file (.opened s.queue.world.file state s.returned) := by
  refine .opened hopen (fun saved hsaved => ?_) fun change hchange => ?_
  · rw [Option.mem_def, h.file_eq] at hsaved
    exact h.sound saved (h.archive_sublist.subset (List.mem_of_getLast? hsaved))
  · obtain ⟨saved, hsaved, hmem⟩ := h.kept hpersistent change hchange
    have hgrows := h.grows.sublist h.archive_sublist
    rw [h.file_eq]
    generalize found.toList ++ s.queue.world.contents = archive at hsaved hgrows ⊢
    rcases List.eq_nil_or_concat archive with rfl | ⟨earlier, last, rfl⟩
    · exact nomatch hsaved
    · rw [List.concat_eq_append] at hsaved hgrows ⊢
      refine ⟨last, List.getLast?_concat, ?_⟩
      rcases List.mem_append.mp hsaved with hearlier | hlast
      · exact ((List.pairwise_append.mp hgrows).2.2 saved hearlier last
          (List.mem_singleton_self _)).subset hmem
      · exact List.mem_singleton.mp hlast ▸ hmem

/-- **Every run keeps them in agreement.** -/
theorem sound_of_reachable
    (h : (system p persistent none emptyState).Reachable Lucky s) :
    ∃ found, Sound p persistent found s := by
  let I (s : AccessStore) : Prop := ∃ found, Sound p persistent found s
  refine h.invariant (I := I) ⟨none, .opened rfl (fun _ hsaved => absurd hsaved (Option.not_mem_none _))
    (fun _ hchange => absurd hchange List.not_mem_nil)⟩ ?_
  rintro s e t - hlucky ⟨found, hs⟩ hstep
  obtain rfl | ⟨request, failure, state, call, rfl, hcall, rfl⟩ | ⟨queue, rfl, hqueue, rfl⟩ |
    ⟨index, pending, rfl, hpending, ⟨error, herror, rfl⟩ | ⟨hok, rfl⟩⟩ |
    ⟨state, rfl, hpersistent, hopen, rfl⟩ := step_cases hstep
  · exact ⟨found, hs⟩
  · exact ⟨found, hs.persist hlucky.1 hlucky.2 hcall⟩
  · exact ⟨found, hs.advance hqueue⟩
  · exact ⟨found, hs.removeCall index⟩
  · exact ⟨found, hs.addReturned (List.mem_of_getElem? hpending) hok index⟩
  · exact ⟨s.queue.world.file, hs.reopen hpersistent hopen⟩

/-! ## The keys that are accepted -/

/-- The store when its writes are left alone. -/
def drained (s : AccessStore) : AccessStore :=
  { s with queue := PromiseChain.drain (persistTasks true) s.queue }

/-- **The keys of a run.**  A text is accepted exactly when it is the secret of a live key, after any
white space, and the answer names the key and its owner.  The changes whose calls have returned are
among those that count, so a key whose revocation has returned is never accepted again.  What
`createApiKey` returns is the key and the secret of its change, and every call that waits returns. -/
structure Authorizes (p : AccessPlatform) (s : AccessStore) : Prop where
  accepted : ∀ str, CollisionFree p s.log str → ∀ now principal,
    (p.authorize (some (js "Bearer " ++ str)) now s.state).answer = some (.ok principal) ↔
      ∃ entry name blanks, Live s.log entry ∧ .userCreated entry.owner name ∈ s.log ∧
        (∀ u ∈ blanks, JSString.isWhiteSpace u = true) ∧ str = blanks ++ entry.secret ∧
        principal = some ⟨entry.owner, name, entry.key⟩
  keyless : ∀ now, (p.authorize none now s.state).answer = some (.ok none) ↔
    areRequired s.log = false
  counts : ∀ change ∈ s.returned, change ∈ s.log
  revoked : ∀ key, .keyRevoked key ∈ s.returned → ∀ authorization now principal,
    (p.authorize authorization now s.state).answer = some (.ok (some principal)) →
      principal.keyId ≠ key
  issues : ∀ pending ∈ s.calls, ∀ key secret, s.response pending = some (.ok (.issued key secret)) →
    pending.mutation = some (.keyIssued key.id key.userId secret)
  returns : ∀ pending ∈ s.calls, s.drained.settledAs pending.promise = some (.ok ())

/-- What `createApiKey` returns. -/
theorem Sound.issues (h : Sound p persistent found s) {pending : PendingAccess}
    (hpending : pending ∈ s.calls) {key : ManagedApiKey} {secret : JSString}
    (hresponse : s.response pending = some (.ok (.issued key secret))) :
    pending.mutation = some (.keyIssued key.id key.userId secret) := by
  unfold response at hresponse
  split at hresponse
  next => exact absurd hresponse nofun
  next => exact absurd hresponse nofun
  next =>
    obtain ⟨result, hresult, heq⟩ := Option.map_eq_some_iff.mp hresponse
    obtain rfl := Except.ok.inj heq
    cases hcall : pending.call with
    | createApiKey index secret' =>
        obtain ⟨id, owner, hmutation, hissued⟩ := (h.waits pending hpending).issues index secret' hcall
        rw [hcall] at hresult
        obtain ⟨stored, hstored, heq⟩ := Option.map_eq_some_iff.mp hresult
        obtain ⟨rfl, rfl⟩ := AccessResponse.issued.inj heq
        have hhashes := congrArg (·[index]?) h.records.keys.hashes
        rw [List.getElem?_map, List.getElem?_map, hstored, hissued] at hhashes
        obtain ⟨hid, hrest⟩ := Prod.mk.inj (Option.some.inj hhashes)
        obtain ⟨howner, -⟩ := Prod.mk.inj hrest
        rw [hmutation]
        exact congrArg₂ (fun id owner => some (AccessMutation.keyIssued id owner _)) hid.symm howner.symm
    | createUser user =>
        rw [hcall] at hresult
        obtain ⟨user, -, heq⟩ := Option.map_eq_some_iff.mp hresult
        exact absurd heq nofun
    | setUserDisabled user =>
        rw [hcall] at hresult
        obtain ⟨user, -, heq⟩ := Option.map_eq_some_iff.mp hresult
        exact absurd heq nofun
    | revokeApiKey key =>
        rw [hcall] at hresult
        obtain ⟨key, -, heq⟩ := Option.map_eq_some_iff.mp hresult
        exact absurd heq nofun
    | setRequireApiKeys =>
        rw [hcall] at hresult
        exact absurd hresult nofun
    | authorize principal =>
        rw [hcall] at hresult
        exact absurd hresult nofun

/-- Every call that waits returns. -/
theorem Sound.returns (h : Sound p persistent found s) {pending : PendingAccess}
    (hpending : pending ∈ s.calls) : s.drained.settledAs pending.promise = some (.ok ()) := by
  have hwritten := (h.waits pending hpending).written
  split at hwritten
  next hnone =>
    rw [hnone]
    rfl
  next index hsome =>
    obtain ⟨w, hw, -⟩ := hwritten
    rw [hsome]
    show (s.drained.queue.settled[index]?).map Prod.snd = _
    rw [show s.drained.queue.settled[index]? = some (w, .ok ()) from
      h.lawful.drained _ h.succeed hw]
    rfl

/-- What has returned stays returned. -/
theorem returned_mono {e : AccessEvent} (hstep : step p persistent s e = some t) :
    s.returned ⊆ t.returned := by
  obtain rfl | ⟨request, failure, state, call, rfl, hcall, rfl⟩ | ⟨queue, rfl, hqueue, rfl⟩ |
    ⟨index, pending, rfl, hpending, ⟨error, herror, rfl⟩ | ⟨hok, rfl⟩⟩ |
    ⟨state, rfl, hpersistent, hopen, rfl⟩ := step_cases hstep
  · exact List.Subset.refl _
  · exact List.Subset.refl _
  · exact List.Subset.refl _
  · exact List.Subset.refl _
  · exact List.subset_append_left _ _
  · exact List.Subset.refl _

/-- **API keys**, over all runs in which the writes succeed and random ids and secrets are new: in every
state the accepted keys are those the changes say, and what has returned is never forgotten. -/
theorem authorizes (p : AccessPlatform) (persistent : Bool) :
    ∀ s, (system p persistent none emptyState).Reachable Lucky s → Authorizes p s ∧
      ∀ e t, step p persistent s e = some t → s.returned ⊆ t.returned := by
  intro s hs
  obtain ⟨found, hsound⟩ := sound_of_reachable hs
  refine ⟨⟨?_, ?_, hsound.returned, ?_, ?_, ?_⟩, fun e t hstep => returned_mono hstep⟩
  · exact fun str hcollision now principal => hsound.records.authorize_iff hcollision now principal
  · intro now
    rw [authorize_none_answer, hsound.records.required]
  · exact fun key hkey authorization now principal hanswer =>
      hsound.records.revoked_refused (hsound.returned _ hkey) authorization now hanswer
  · exact fun pending hpending key secret hresponse => hsound.issues hpending hresponse
  · exact fun pending hpending => hsound.returns hpending

/-! ## A run -/

instance (log : List AccessMutation) (state : AccessState) (request : AccessRequest) :
    Decidable (request.Fresh log state) := by
  cases request <;> unfold AccessRequest.Fresh <;> infer_instance

/-- Whether an event is lucky. -/
def isLucky (s : AccessStore) : AccessEvent → Bool
  | .call request failure =>
      [WriteOp.mkdir, .writeFile, .rename].all (fun op => (failure op).isNone) &&
        decide (request.Fresh s.log s.state)
  | _ => true

theorem lucky_of_isLucky (s : AccessStore) (e : AccessEvent) (h : isLucky s e = true) :
    Lucky s e := by
  cases e with
  | call request failure =>
      obtain ⟨hall, hfresh⟩ := Bool.and_eq_true_iff.mp h
      refine ⟨fun op => Option.isNone_iff_eq_none.mp (List.all_eq_true.mp hall op ?_),
        of_decide_eq_true hfresh⟩
      cases op <;> decide
  | _ => trivial

/-- The secret of 32 zero bytes. -/
def zeroSecret : JSString := AccessPlatform.newSecret (List.replicate 32 0)

/-- A platform, with the digest of that secret. -/
def onePlatform : AccessPlatform where
  sha256 text := if text = zeroSecret then
      [249, 48, 250, 125, 63, 41, 81, 64, 228, 180, 158, 178, 206, 94, 241, 51, 60, 233,
        121, 198, 188, 58, 133, 201, 29, 47, 244, 112, 246, 58, 215, 103]
    else JSString.encodeUtf8 text
  toLocaleLowerCase := id
  parseDate _ := none

/-- A call, its write, and its return. -/
def completed (request : AccessRequest) : List AccessEvent :=
  .call request (fun _ => none) :: List.replicate 5 .advance ++ [.resume 0]

/-- A user and a key, and a store opened from their file. -/
def oneKey : AccessStore :=
  (system onePlatform true none emptyState).after isLucky
    (completed (.createUser (js "Editor") (js "user") 0) ++
      completed (.createApiKey (js "user") (js "Desktop") (js "key") (List.replicate 32 0) 0) ++
      [.reopen])

theorem reachable_oneKey : (system onePlatform true none emptyState).Reachable Lucky oneKey :=
  System.reachable_after lucky_of_isLucky _

theorem collisionFree_oneKey (str : JSString)
    (h : (str.tails.all fun text => issued oneKey.log |>.all fun entry =>
      decide (onePlatform.sha256 text = onePlatform.sha256 entry.secret → text = entry.secret)) = true) :
    CollisionFree onePlatform oneKey.log str := by
  intro text htext entry hentry
  exact of_decide_eq_true (List.all_eq_true.mp
    (List.all_eq_true.mp h text ((List.mem_tails text str).mpr htext)) entry hentry)

/-- The store that was opened again accepts the key. -/
theorem authorizes_oneKey :
    (onePlatform.authorize (some (js "Bearer " ++ zeroSecret)) 0 oneKey.state).answer
      = some (.ok (some ⟨js "user", js "Editor", js "key"⟩)) := by
  refine ((authorizes onePlatform true oneKey reachable_oneKey).1.accepted zeroSecret
    (collisionFree_oneKey _ (by decide +kernel)) 0 _).mpr
    ⟨⟨js "key", js "user", zeroSecret⟩, js "Editor", [], ⟨?_, ?_, ?_⟩, ?_, List.forall_mem_nil _, rfl, rfl⟩
  · decide +kernel
  · decide +kernel
  · decide +kernel
  · decide +kernel

/-- A blank before the secret is accepted, too. -/
theorem blank_accepted : ¬ ∀ (p : AccessPlatform) (persistent : Bool) (s : AccessStore),
    (system p persistent none emptyState).Reachable Lucky s →
    ∀ str, CollisionFree p s.log str → ∀ now,
      (∃ principal, (p.authorize (some (js "Bearer " ++ str)) now s.state).answer
        = some (.ok principal)) ↔
      ∃ entry : Issued, .keyIssued entry.key entry.owner entry.secret ∈ s.returned ∧
        .keyRevoked entry.key ∉ s.returned ∧ isDisabled entry.owner s.returned = false ∧
        str = entry.secret := by
  intro h
  have hiff := h onePlatform true oneKey reachable_oneKey (js " " ++ zeroSecret)
    (collisionFree_oneKey _ (by decide +kernel)) 0
  have haccepted : (onePlatform.authorize (some (js "Bearer " ++ (js " " ++ zeroSecret))) 0
      oneKey.state).answer = some (.ok (some ⟨js "user", js "Editor", js "key"⟩)) := by
    decide +kernel
  obtain ⟨entry, hreturned, -, -, hsecret⟩ := hiff.mp ⟨_, haccepted⟩
  have hlog : oneKey.returned = [.userCreated (js "user") (js "Editor"),
      .keyIssued (js "key") (js "user") zeroSecret] := by decide +kernel
  rw [hlog, hsecret.symm] at hreturned
  rcases List.mem_cons.mp hreturned with heq | hlast
  · exact absurd heq nofun
  · obtain ⟨-, -, heq⟩ := AccessMutation.keyIssued.inj (List.mem_singleton.mp hlast)
    exact absurd heq (by decide +kernel)

end AccessStore

end Typr
