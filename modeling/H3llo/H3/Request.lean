import H3llo.Basis.HashMap
import H3llo.Config.Peers
import H3llo.Net.Utf8

/-! The CONNECT-IP request: what the dialer sends and what the listener checks.

The listener compares header values as bytes, except the bearer token, which it decodes
first. A token with a replacement character is therefore also met by ill-formed bytes.
-/

set_option autoImplicit false

namespace H3llo.H3
open H3llo.Config H3llo.Net.Utf8

structure Header where
  name : List UInt8
  value : List UInt8
  deriving DecidableEq, Repr

def toAsciiLowercase (byte : UInt8) : UInt8 := if 0x41 ≤ byte ∧ byte ≤ 0x5A then byte + 32 else byte

def eqIgnoreAsciiCase (first second : List UInt8) : Bool :=
  first.map toAsciiLowercase == second.map toAsciiLowercase

/-! ## Headers -/

def connectHeaders (authority connectPath authHeader : String) : List Header :=
  [⟨asBytes ":method", asBytes "CONNECT"⟩, ⟨asBytes ":protocol", asBytes "connect-ip"⟩,
    ⟨asBytes ":scheme", asBytes "https"⟩, ⟨asBytes ":authority", asBytes authority⟩,
    ⟨asBytes ":path", asBytes connectPath⟩, ⟨asBytes "capsule-protocol", asBytes "?1"⟩,
    ⟨asBytes "authorization", asBytes authHeader⟩]

def validateServerConnectHeaders (headers : List Header) : Except String Unit :=
  let method := (headers.find? fun header => header.name == asBytes ":method").map Header.value
  let protocol := (headers.find? fun header => header.name == asBytes ":protocol").map Header.value
  let capsule :=
    (headers.find? fun header => eqIgnoreAsciiCase header.name (asBytes "capsule-protocol")).map
      Header.value
  if method ≠ some (asBytes "CONNECT") then .error "invalid :method, expected CONNECT"
  else if protocol ≠ some (asBytes "connect-ip") then
    .error "invalid :protocol, expected connect-ip"
  else if capsule ≠ some (asBytes "?1") then .error "invalid capsule-protocol, expected ?1"
  else .ok ()

/-! ## Authentication -/

inductive AuthError where
  | missingHeader | notBearer | emptyToken | invalidToken
  deriving DecidableEq, Repr

def AuthError.toText : AuthError → String
  | .missingHeader => "missing Authorization header"
  | .notBearer => "not Bearer auth"
  | .emptyToken => "empty token"
  | .invalidToken => "unknown peer or invalid token"

abbrev HmacKey := Fin 32 → UInt8

/-- Message authentication codes; a message verifies against its own code only. -/
class Hmac where
  Mac : Type
  mac : List UInt8 → HmacKey → Mac
  verify : List UInt8 → HmacKey → Mac → Bool
  verify_mac (expected presented : List UInt8) (key : HmacKey) :
    verify expected key (mac presented key) = true ↔ expected = presented

def bearerAuthHeader (token : String) : String := "Bearer " ++ token

def stripPrefix (pattern text : String) : Option String :=
  if pattern.toList <+: text.toList then
    some (String.ofList (text.toList.drop pattern.toList.length))
  else none

def authorization (headers : List Header) : Option Header :=
  headers.find? fun header => eqIgnoreAsciiCase header.name (asBytes "authorization")

section Checks

variable [Hmac]

def validateConnectAuth (key : HmacKey) (headerValue : Option String)
    (peerTokens : List (String × String)) : Except AuthError String :=
  match headerValue with
  | none => .error .missingHeader
  | some header =>
      match stripPrefix "Bearer " header with
      | none => .error .notBearer
      | some token =>
          if token = "" then .error .emptyToken
          else
            let presentedMac := Hmac.mac (asBytes token) key
            match peerTokens.find? fun entry => Hmac.verify (asBytes entry.2) key presentedMac with
            | some (peerId, _) => .ok peerId
            | none => .error .invalidToken

def validateServerAuth (key : HmacKey) (headers : List Header) (tokens : List (String × String)) :
    Except String String :=
  let authValue := (authorization headers).map fun header => fromUtf8Lossy header.value
  (validateConnectAuth key authValue tokens).mapError AuthError.toText

/-! ## Tokens -/

omit [Hmac] in
theorem stripPrefix_eq_some {pattern text rest : String} :
    stripPrefix pattern text = some rest ↔ text = pattern ++ rest := by
  rw [stripPrefix, ← String.toList_inj, String.toList_append]
  constructor
  · intro stripped
    split at stripped
    next starts =>
      cases stripped
      rw [String.toList_ofList, List.prefix_iff_eq_append.mp starts]
    next => cases stripped
  · intro same
    rw [same, if_pos (List.prefix_append _ _), List.drop_left, String.ofList_toList]

def Unambiguous (tokens : List (String × String)) : Prop :=
  ∀ first second token, (first, token) ∈ tokens → (second, token) ∈ tokens → first = second

theorem verify_eq_decide (key : HmacKey) (token : String) :
    (fun entry : String × String => Hmac.verify (asBytes entry.2) key
      (Hmac.mac (asBytes token) key)) =
      fun entry => decide (entry.2 = token) := by
  funext entry
  rw [Bool.eq_iff_iff, Hmac.verify_mac, asBytes_inj, decide_eq_true_eq]

omit [Hmac] in
/-- The loop over the tokens finds the only peer that has the presented one. -/
theorem find_token {tokens : List (String × String)} (unambiguous : Unambiguous tokens)
    {token : String} {entry : String × String} :
    (tokens.find? fun entry => decide (entry.2 = token)) = some entry ↔ entry.2 = token ∧
    entry ∈ tokens := by
  constructor
  · intro found
    have passed := List.find?_some found
    exact ⟨of_decide_eq_true passed, List.mem_of_find?_eq_some found⟩
  · rintro ⟨rfl, member⟩
    cases found : tokens.find? fun other => decide (other.2 = entry.2) with
    | none => exact absurd (List.find?_eq_none.mp found entry member) (by simp)
    | some other =>
      have passed := List.find?_some found
      have same : other.2 = entry.2 := of_decide_eq_true passed
      have id : other.1 = entry.1 := unambiguous _ _ entry.2
        (same ▸ List.mem_of_find?_eq_some found) member
      rw [Prod.ext id same]

theorem validateConnectAuth_ok_iff {tokens : List (String × String)}
    (unambiguous : Unambiguous tokens) (key : HmacKey) (value : Option String) (peerId : String) :
    validateConnectAuth key value tokens = .ok peerId ↔
      ∃ token, token ≠ "" ∧ value = some (bearerAuthHeader token) ∧ (peerId, token) ∈ tokens := by
  unfold validateConnectAuth bearerAuthHeader
  cases value with
  | none => simp
  | some header =>
    simp only [Option.some.injEq, ← stripPrefix_eq_some]
    cases stripPrefix "Bearer " header with
    | none => simp
    | some token =>
      by_cases empty : token = ""
      · simp [empty]
      · simp only [empty, if_false, verify_eq_decide, Option.some.injEq]
        cases found : tokens.find? fun entry => decide (entry.2 = token) with
        | none =>
          have absent : (peerId, token) ∉ tokens := fun member =>
            absurd (List.find?_eq_none.mp found _ member) (by simp)
          simp [absent]
        | some entry =>
          obtain ⟨rfl, member⟩ := (find_token unambiguous).mp found
          simp only [Except.ok.injEq]
          constructor
          · rintro rfl
            exact ⟨entry.2, empty, rfl, member⟩
          · rintro ⟨token, _, rfl, other⟩
            exact unambiguous _ _ _ member other

theorem validateConnectAuth_congr {first second : List (String × String)}
    (unambiguous : Unambiguous first) (same : ∀ entry, entry ∈ first ↔ entry ∈ second)
    (key other : HmacKey) (value : Option String) :
    validateConnectAuth key value first = validateConnectAuth other value second := by
  have also : Unambiguous second := by
    intro left right token
    rw [← same, ← same]
    exact unambiguous left right token
  have found (token : String) : (first.find? fun entry => decide (entry.2 = token)) =
      second.find? fun entry => decide (entry.2 = token) := by
    apply Option.ext
    intro entry
    rw [find_token unambiguous, find_token also, same]
  unfold validateConnectAuth
  simp only [verify_eq_decide, found]

theorem validateServerAuth_ok_iff {tokens : List (String × String)}
    (unambiguous : Unambiguous tokens) (key : HmacKey) (headers : List Header) (peerId : String) :
    validateServerAuth key headers tokens = .ok peerId ↔
      ∃ header token, authorization headers = some header ∧ token ≠ "" ∧
        fromUtf8Lossy header.value = bearerAuthHeader token ∧ (peerId, token) ∈ tokens := by
  have passed (result : Except AuthError String) :
      result.mapError AuthError.toText = .ok peerId ↔ result = .ok peerId := by
    cases result <;> simp [Except.mapError]
  rw [validateServerAuth, passed, validateConnectAuth_ok_iff unambiguous]
  simp only [Option.map_eq_some_iff]
  constructor
  · rintro ⟨token, nonempty, ⟨header, first, shown⟩, stored⟩
    exact ⟨header, token, first, nonempty, shown, stored⟩
  · rintro ⟨header, token, first, nonempty, shown, stored⟩
    exact ⟨token, nonempty, ⟨header, first, shown⟩, stored⟩

/-! ## Exact authentication -/

/-- The map from the ids of HTTP/3 peers to their tokens. -/
def TokensOf (peers : List Peer) (tokens : HashMap String String) : Prop :=
  ∀ peerId token, tokens.lookup peerId = some token ↔ ∃ peer ∈ peers, peer.id = peerId ∧
    peer.token? = some token

section Accepted

variable {peers : List Peer} {tokens : HashMap String String}

omit [Hmac] in
theorem nonempty_of_accepted (accepted : validatePeers peers = .ok ())
    (taken : TokensOf peers tokens) {peerId token : String}
    (stored : tokens.lookup peerId = some token) : token ≠ "" := by
  obtain ⟨peer, member, _, has⟩ := (taken peerId token).mp stored
  unfold Peer.token? at has
  split at has
  next options isH3 =>
    have long := (((validatePeers_ok_iff.mp accepted).1 peer member).transport options isH3).token.1
    rw [Option.some.injEq] at has
    rintro rfl
    rw [has] at long
    exact absurd long (by decide)
  next => cases has

omit [Hmac] in
theorem unambiguous_of_accepted (accepted : validatePeers peers = .ok ())
    (taken : TokensOf peers tokens) {entries : List (String × String)}
    (lists : HashMap.EnumeratesEntries entries tokens) : Unambiguous entries := by
  obtain ⟨_, _, distinct⟩ := validatePeers_ok_iff.mp accepted
  intro first second token
  rw [lists.mem_iff, lists.mem_iff, taken, taken]
  rintro ⟨left, leftMember, rfl, leftToken⟩ ⟨right, rightMember, rfl, rightToken⟩
  by_contra different
  have symmetric : Std.Symm fun left right : Peer => ∀ t ∈ left.token?, ∀ u ∈ right.token?, t ≠ u :=
    ⟨fun _ _ apart t has u other => (apart u other t has).symm⟩
  have apart := (List.pairwise_filterMap.mp distinct).forall leftMember rightMember
    (fun same => different (by rw [same]))
  exact apart token leftToken token rightToken rfl

/-- What the listener's check amounts to: the decoded value is compared. -/
theorem validateServerAuth_accepted (accepted : validatePeers peers = .ok ())
    (taken : TokensOf peers tokens) {entries : List (String × String)}
    (lists : HashMap.EnumeratesEntries entries tokens) (key : HmacKey) (headers : List Header)
    (peerId : String) :
    validateServerAuth key headers entries = .ok peerId ↔
      ∃ header token, authorization headers = some header ∧ tokens.lookup peerId = some token ∧
        fromUtf8Lossy header.value = bearerAuthHeader token := by
  rw [validateServerAuth_ok_iff (unambiguous_of_accepted accepted taken lists)]
  simp only [lists.mem_iff]
  constructor
  · rintro ⟨header, token, first, _, decoded, stored⟩
    exact ⟨header, token, first, stored, decoded⟩
  · rintro ⟨header, token, first, stored, decoded⟩
    exact ⟨header, token, first, nonempty_of_accepted accepted taken stored, decoded, stored⟩

theorem validateServerAuth_unordered (accepted : validatePeers peers = .ok ())
    (taken : TokensOf peers tokens) {entries reordered : List (String × String)}
    (lists : HashMap.EnumeratesEntries entries tokens)
    (also : HashMap.EnumeratesEntries reordered tokens) (key other : HmacKey)
    (headers : List Header) :
    validateServerAuth key headers entries = validateServerAuth other headers reordered := by
  have same (entry : String × String) : entry ∈ entries ↔ entry ∈ reordered := by
    rw [lists.mem_iff, also.mem_iff]
  simp only [validateServerAuth]
  rw [validateConnectAuth_congr (unambiguous_of_accepted accepted taken lists) same key other]

omit [Hmac] in
theorem validateServerConnectHeaders_connectHeaders (authority connectPath authHeader : String) :
    validateServerConnectHeaders (connectHeaders authority connectPath authHeader) = .ok () := rfl

omit [Hmac] in
theorem authorization_connectHeaders (authority connectPath authHeader : String) :
    authorization (connectHeaders authority connectPath authHeader) =
      some ⟨asBytes "authorization", asBytes authHeader⟩ := rfl

end Accepted

omit [Hmac] in
theorem replacement_notMem_bearer {token : String} :
    replacement ∉ (bearerAuthHeader token).toList ↔ replacement ∉ token.toList := by
  have plain : replacement ∉ "Bearer ".toList := by decide +kernel
  rw [bearerAuthHeader, String.toList_append, List.mem_append, not_or]
  exact and_iff_right plain

/-- A peer is authenticated by the bytes of its token and by nothing else. -/
structure ExactFor (tokens : HashMap String String) : Prop where
  exact (key : HmacKey) (headers : List Header) (entries : List (String × String)) :
    HashMap.EnumeratesEntries entries tokens → ∀ peerId,
      (validateServerAuth key headers entries = .ok peerId ↔
        ∃ header token, authorization headers = some header ∧ tokens.lookup peerId = some token ∧
          header.value = asBytes "Bearer " ++ asBytes token)
  unordered (key other : HmacKey) (headers : List Header)
    (entries reordered : List (String × String)) :
    HashMap.EnumeratesEntries entries tokens → HashMap.EnumeratesEntries reordered tokens →
      validateServerAuth key headers entries = validateServerAuth other headers reordered
  clients (key : HmacKey) (headers : List Header) (entries : List (String × String)) :
    HashMap.EnumeratesEntries entries tokens → ∀ peerId token header,
      tokens.lookup peerId = some token →
      authorization headers = some header → header.value = asBytes (bearerAuthHeader token) →
      validateServerAuth key headers entries = .ok peerId

/-- Authentication is exact if and only if no token has a replacement character. -/
theorem bearer_auth_exact_iff {peers : List Peer} {tokens : HashMap String String}
    (accepted : validatePeers peers = .ok ()) (taken : TokensOf peers tokens) :
    ExactFor tokens ↔ ∀ peer ∈ peers, ∀ token ∈ peer.token?, replacement ∉ token.toList := by
  constructor
  · intro isExact peer member token has
    rw [← replacement_notMem_bearer, ← fromUtf8Lossy_eq_iff_asBytes]
    intro bytes
    refine ⟨fun decoded => ?_, fun same => by rw [same, fromUtf8Lossy_asBytes]⟩
    -- a request with these bytes is accepted, so they are the token's
    obtain ⟨entries, lists⟩ := HashMap.exists_enumeratesEntries tokens
    have stored := (taken peer.id token).mpr ⟨peer, member, rfl, has⟩
    have first : authorization [⟨asBytes "authorization", bytes⟩] =
        some ⟨asBytes "authorization", bytes⟩ := by
      simp [authorization, eqIgnoreAsciiCase]
    have ok := (validateServerAuth_accepted accepted taken lists (fun _ => 0) _ peer.id).mpr
      ⟨_, token, first, stored, decoded⟩
    obtain ⟨header, other, found, otherStored, value⟩ := (isExact.exact _ _ _ lists peer.id).mp ok
    rw [first, Option.some.injEq] at found
    rw [stored, Option.some.injEq] at otherStored
    rw [bearerAuthHeader, asBytes_append, otherStored, ← value, ← found]
  · intro clean
    have decodes (peerId token : String) (stored : tokens.lookup peerId = some token)
        (bytes : List UInt8) :
        fromUtf8Lossy bytes = bearerAuthHeader token ↔ bytes = asBytes "Bearer " ++
          asBytes token := by
      obtain ⟨peer, member, _, has⟩ := (taken peerId token).mp stored
      rw [← asBytes_append]
      exact (fromUtf8Lossy_eq_iff_asBytes _).mpr
        (replacement_notMem_bearer.mpr (clean peer member token has)) bytes
    constructor
    · intro key headers entries lists peerId
      rw [validateServerAuth_accepted accepted taken lists]
      constructor
      · rintro ⟨header, token, first, stored, decoded⟩
        exact ⟨header, token, first, stored, (decodes peerId token stored header.value).mp decoded⟩
      · rintro ⟨header, token, first, stored, value⟩
        exact ⟨header, token, first, stored, (decodes peerId token stored header.value).mpr value⟩
    · intro key other headers entries reordered lists also
      exact validateServerAuth_unordered accepted taken lists also key other headers
    · intro key headers entries lists peerId token header stored first value
      rw [validateServerAuth_accepted accepted taken lists]
      exact ⟨header, token, first, stored, by rw [value, fromUtf8Lossy_asBytes]⟩

end Checks

/-! ## A listen-only peer -/

@[reducible] def plainHmac : Hmac where
  Mac := List UInt8 × HmacKey
  mac message key := (message, key)
  verify message key code := decide (code = (message, key))
  verify_mac expected presented key := by simp [eq_comm]

def listenOnly (token : String) : Peer where
  id := "relay"
  transport := .h3 { endpoint := none, token, bindif := none, sni := none }
  tun := ⟨[.ofV4 0x0a010000#32 16]⟩

def relayTokens (token : String) : HashMap String String := Finmap.singleton "relay" token

theorem tokensOf_listenOnly (token : String) : TokensOf [listenOnly token] (relayTokens token) := by
  intro peerId other
  simp only [List.mem_singleton, exists_eq_left, Peer.token?, listenOnly, Option.some.injEq]
  by_cases same : peerId = "relay"
  · rw [same, relayTokens, Finmap.lookup_singleton_eq, Option.some.injEq]
    exact (and_iff_right rfl).symm
  · have absent : Finmap.lookup peerId (relayTokens token) = none := by
      rw [Finmap.lookup_eq_none, relayTokens, Finmap.mem_singleton]
      exact same
    rw [absent]
    exact iff_of_false nofun fun has => same has.1.symm

theorem bearer_auth_exact_ascii : @ExactFor plainHmac (relayTokens "secret-token") :=
  (@bearer_auth_exact_iff plainHmac [listenOnly "secret-token"] _ (by decide +kernel)
    (tokensOf_listenOnly _)).mpr
    (by decide +kernel)

theorem bearer_auth_inexact :
    validatePeers [listenOnly "secret-token\ufffd"] = .ok () ∧
    TokensOf [listenOnly "secret-token\ufffd"] (relayTokens "secret-token\ufffd") ∧
    @validateServerAuth plainHmac (fun _ => 0)
      [⟨asBytes "authorization", asBytes "Bearer secret-token" ++ [0xFF]⟩]
      [("relay", "secret-token\ufffd")] = .ok "relay" ∧
    ¬ @ExactFor plainHmac (relayTokens "secret-token\ufffd") := by
  have ok : @validateServerAuth plainHmac (fun _ => 0)
      [⟨asBytes "authorization", asBytes "Bearer secret-token" ++ [0xFF]⟩]
        [("relay", "secret-token\ufffd")] =
        .ok "relay" := by
    decide +kernel
  refine ⟨by decide +kernel, tokensOf_listenOnly _, ok, fun isExact => ?_⟩
  obtain ⟨header, token, first, stored, value⟩ :=
    (@ExactFor.exact plainHmac _ isExact _ _ _ rfl "relay").mp ok
  rw [relayTokens, Finmap.lookup_singleton_eq, Option.some.injEq] at stored
  have found : authorization [⟨asBytes "authorization", asBytes "Bearer secret-token" ++ [0xFF]⟩] =
      some ⟨asBytes "authorization", asBytes "Bearer secret-token" ++ [0xFF]⟩ := by decide +kernel
  rw [found, Option.some.injEq] at first
  rw [← first, ← stored] at value
  revert value
  decide +kernel

end H3llo.H3
