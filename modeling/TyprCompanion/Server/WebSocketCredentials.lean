import TyprCompanion.Server.ServiceGate

/-!
# Keys in WebSocket subprotocols

A browser cannot send an `Authorization` header with an upgrade, so it offers its API key as a subprotocol.

* `handleProtocols` — the subprotocol that is negotiated.
* `keyProtocol`, `OffersProtocols` — how a key is offered among other subprotocols.
* `AuthorizedAs` — an authorization is accepted for a principal.
* **`websocket_credentials`** — an upgrade is authorized as a request with the same key is.
-/

namespace Typr

/-- `typr-api-key.` -/
def KEY_PROTOCOL_PREFIX : JSString := js "typr-api-key."

/-- `handleProtocols` of the WebSocket server; `none` for `false` -/
def handleProtocols (protocols : List JSString) : Option JSString :=
  if protocols.contains (js "typr-companion-v1") = true then some (js "typr-companion-v1") else none

/-- The subprotocol that carries a key. -/
def keyProtocol (key : JSString) : JSString :=
  KEY_PROTOCOL_PREFIX ++ toBase64Url (JSString.encodeUtf8 key)

/-- A subprotocol that looks like one. -/
def BearsKey (protocol : JSString) : Prop := protocol.startsWith KEY_PROTOCOL_PREFIX = true

instance (protocol : JSString) : Decidable (BearsKey protocol) :=
  inferInstanceAs (Decidable (_ = true))

/-- The header offers these subprotocols, with commas and white space in between. -/
def OffersProtocols (header : JSString) (protocols : List JSString) : Prop :=
  (JSString.split (unit ',') header).map JSString.trim = protocols

/-- `authorize` accepts the authorization for this principal, or for none when no key is required. -/
def AuthorizedAs (p : AccessPlatform) (state : AccessState) (now : Nat)
    (authorization : Option JSString) (principal : Option ApiPrincipal) : Prop :=
  (p.authorize authorization now state).answer = some (.ok principal)

/-! ## The key that is read -/

theorem isAscii_of_isKeyText {key : JSString} (h : IsKeyText key) : ∀ u ∈ key, JSString.IsAscii u := by
  obtain ⟨hstart, -, hunits⟩ := h
  obtain ⟨rest, rfl⟩ := List.isPrefixOf_iff_prefix.mp hstart
  intro u hu
  rcases List.mem_append.mp hu with hu | hu
  · exact JSString.isAscii_of_all rfl u hu
  · have hunit : isBase64UrlUnit u = true := by
      have hdrop : (API_KEY_PREFIX ++ rest).drop 5 = rest := rfl
      rw [hdrop] at hunits
      exact List.all_eq_true.mp hunits u hu
    simp only [isBase64UrlUnit, Bool.or_eq_true, Bool.and_eq_true, decide_eq_true_eq, beq_iff_eq]
      at hunit
    have hbounds : u.toNat ≤ 0x7A := by
      rcases hunit with (((h | h) | h) | rfl) | rfl
      · omega
      · omega
      · omega
      · decide
      · decide
    exact Nat.lt_of_le_of_lt hbounds (by decide)

theorem encodeUtf8_ne_nil {u : CodeUnit} (h : JSString.IsAscii u) (rest : JSString) :
    JSString.encodeUtf8 (u :: rest) ≠ [] := by
  rw [JSString.encodeUtf8_cons h]
  exact List.cons_ne_nil _ _

/-- **The key comes back** out of the encoding. -/
theorem decode_keyProtocol {key : JSString} (h : IsKeyText key) :
    JSString.decodeUtf8 (fromBase64 (toBase64Url (JSString.encodeUtf8 key))) = key := by
  rw [fromBase64_toBase64Url, JSString.decodeUtf8_encodeUtf8,
    JSString.toWellFormed_ascii (isAscii_of_isKeyText h)]

/-- The first subprotocol that bears a key is the one that is read. -/
theorem find_keyProtocol {key : JSString} {before after : List JSString}
    (hothers : ∀ protocol ∈ before, ¬ BearsKey protocol) :
    (before ++ keyProtocol key :: after).find?
      (fun protocol => protocol.startsWith KEY_PROTOCOL_PREFIX) = some (keyProtocol key) := by
  have hbefore : before.find? (fun protocol => protocol.startsWith KEY_PROTOCOL_PREFIX) = none :=
    List.find?_eq_none.mpr hothers
  have hkey : BearsKey (keyProtocol key) :=
    List.isPrefixOf_iff_prefix.mpr (List.prefix_append _ _)
  rw [List.find?_append, hbefore, Option.none_or]
  exact List.find?_cons_of_pos hkey

/-- An upgrade that offers a key is given the header of a request with that key. -/
theorem webSocketAuthorization_key {upgrade : HttpRequest} {header key : JSString}
    {before after : List JSString} (hkey : IsKeyText key)
    (hothers : ∀ protocol ∈ before, ¬ BearsKey protocol)
    (hauthorization : upgrade.header "authorization" = none)
    (hheader : upgrade.header "sec-websocket-protocol" = some (.one header))
    (hoffers : OffersProtocols header (before ++ keyProtocol key :: after)) :
    webSocketAuthorization upgrade = some (js "Bearer " ++ key) := by
  have hencoded : toBase64Url (JSString.encodeUtf8 key) ≠ [] := by
    refine toBase64Url_ne_nil ?_
    obtain ⟨rest, rfl⟩ := List.isPrefixOf_iff_prefix.mp hkey.1
    exact encodeUtf8_ne_nil (by decide) _
  have hfind : ((JSString.split (unit ',') header).map JSString.trim).find?
      (fun protocol => protocol.startsWith (js "typr-api-key.")) = some (keyProtocol key) := by
    rw [hoffers]
    exact find_keyProtocol hothers
  have hdrop : (keyProtocol key).drop (js "typr-api-key.").length =
      toBase64Url (JSString.encodeUtf8 key) := List.drop_left
  rw [webSocketAuthorization, hauthorization, hheader]
  simp only [stringHeader, hfind, Option.map_some, hdrop]
  rw [decode_keyProtocol hkey]

/-- An upgrade without a key is given no authorization. -/
theorem webSocketAuthorization_none {upgrade : HttpRequest}
    (hauthorization : upgrade.header "authorization" = none)
    (hothers : ∀ header, upgrade.header "sec-websocket-protocol" = some (.one header) →
      ∀ protocol ∈ (JSString.split (unit ',') header).map JSString.trim, ¬ BearsKey protocol) :
    webSocketAuthorization upgrade = none := by
  rw [webSocketAuthorization, hauthorization]
  cases hheader : upgrade.header "sec-websocket-protocol" with
  | none => rfl
  | some value =>
      cases value with
      | many values => rfl
      | one header =>
          have hfind : ((JSString.split (unit ',') header).map JSString.trim).find?
              (fun protocol => protocol.startsWith (js "typr-api-key.")) = none :=
            List.find?_eq_none.mpr (hothers header hheader)
          simp only [stringHeader, hfind, Option.map_none]

theorem requestAuthorization_none {request : HttpRequest}
    (h : request.header "authorization" = none) : requestAuthorization request = none := by
  rw [requestAuthorization, h]

theorem requestAuthorization_one {request : HttpRequest} {value : JSString}
    (h : request.header "authorization" = some (.one value)) :
    requestAuthorization request = some value := by
  rw [requestAuthorization, h]

/-- The negotiated subprotocol is one that was offered. -/
theorem handleProtocols_eq_some {protocols : List JSString} {protocol : JSString}
    (h : handleProtocols protocols = some protocol) :
    protocol = js "typr-companion-v1" ∧ protocol ∈ protocols := by
  obtain ⟨hmem, hprotocol⟩ := Option.ite_none_right_eq_some.mp h
  obtain rfl := Option.some.inj hprotocol
  exact ⟨rfl, List.contains_iff_mem.mp hmem⟩

/-! ## The result -/

/-- **WebSocket credentials.**  In every state of the store an upgrade that offers a key, among any other
subprotocols, is authorized exactly as a request with that key in its header, for the same principal; without
a key it is authorized as a request without one.  A subprotocol that bears a key is never negotiated. -/
theorem websocket_credentials (p : AccessPlatform) (state : AccessState) (now : Nat) :
    (∀ (key : JSString) (before after : List JSString) (header : JSString)
        (upgrade request : HttpRequest),
      IsKeyText key → (∀ protocol ∈ before ++ after, ¬ BearsKey protocol) →
      upgrade.header "authorization" = none →
      upgrade.header "sec-websocket-protocol" = some (.one header) →
      OffersProtocols header (before ++ keyProtocol key :: after) →
      request.header "authorization" = some (.one (js "Bearer " ++ key)) →
      ∀ principal, AuthorizedAs p state now (webSocketAuthorization upgrade) principal ↔
        AuthorizedAs p state now (requestAuthorization request) principal) ∧
    (∀ upgrade request : HttpRequest, upgrade.header "authorization" = none →
      (∀ header, upgrade.header "sec-websocket-protocol" = some (.one header) →
        ∀ protocol ∈ (JSString.split (unit ',') header).map JSString.trim, ¬ BearsKey protocol) →
      request.header "authorization" = none →
      ∀ principal, AuthorizedAs p state now (webSocketAuthorization upgrade) principal ↔
        AuthorizedAs p state now (requestAuthorization request) principal) ∧
    ∀ protocols protocol, handleProtocols protocols = some protocol →
      protocol ∈ protocols ∧ ¬ BearsKey protocol := by
  refine ⟨?_, ?_, ?_⟩
  · intro key before after header upgrade request hkey hothers hauthorization hheader hoffers hrequest
      principal
    have hbefore : ∀ protocol ∈ before, ¬ BearsKey protocol := fun protocol hmem =>
      hothers protocol (List.mem_append_left _ hmem)
    rw [webSocketAuthorization_key hkey hbefore hauthorization hheader hoffers,
      requestAuthorization_one hrequest]
  · intro upgrade request hauthorization hothers hrequest principal
    rw [webSocketAuthorization_none hauthorization hothers, requestAuthorization_none hrequest]
  · intro protocols protocol h
    obtain ⟨rfl, hmem⟩ := handleProtocols_eq_some h
    exact ⟨hmem, by decide⟩

/-- A store that requires keys, with one key. -/
def oneKeyState : AccessState where
  requireApiKeys := true
  users := [⟨js "user", js "Editor", false, []⟩]
  keys := [⟨⟨js "key", js "user", js "Desktop", js "typr_AAAAAAAA", [], none, none⟩,
    AccessStore.onePlatform.hashSecret AccessStore.zeroSecret⟩]

/-- The key of that store, offered last. -/
theorem websocket_credentials_oneKey :
    let upgrade := bareRequest "GET" "/ws/texpresso"
      [("sec-websocket-protocol", js "typr-companion-v1, " ++ keyProtocol AccessStore.zeroSecret)]
    AuthorizedAs AccessStore.onePlatform oneKeyState 0 (webSocketAuthorization upgrade)
      (some ⟨js "user", js "Editor", js "key"⟩) := by
  intro upgrade
  let request := bareRequest "GET" "/api/v1/status"
    [("authorization", js "Bearer " ++ AccessStore.zeroSecret)]
  have hoffers : OffersProtocols (js "typr-companion-v1, " ++ keyProtocol AccessStore.zeroSecret)
      ([js "typr-companion-v1"] ++ keyProtocol AccessStore.zeroSecret :: []) :=
    (by decide +kernel : (JSString.split (unit ',')
      (js "typr-companion-v1, " ++ keyProtocol AccessStore.zeroSecret)).map JSString.trim =
        [js "typr-companion-v1", keyProtocol AccessStore.zeroSecret])
  have hothers : ∀ protocol ∈ [js "typr-companion-v1"] ++ [], ¬ BearsKey protocol :=
    List.forall_mem_singleton.mpr (by decide)
  have hiff := (websocket_credentials AccessStore.onePlatform oneKeyState 0).1 AccessStore.zeroSecret
    [js "typr-companion-v1"] [] _ upgrade request (by decide) hothers rfl rfl hoffers rfl
    (some ⟨js "user", js "Editor", js "key"⟩)
  have hrequest : (AccessStore.onePlatform.authorize (requestAuthorization request) 0 oneKeyState).answer =
      some (.ok (some ⟨js "user", js "Editor", js "key"⟩)) := by decide +kernel
  exact hiff.mpr hrequest

end Typr
