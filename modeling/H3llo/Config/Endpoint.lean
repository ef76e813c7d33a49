import H3llo.Config.Peers

/-! Endpoint URIs.

The URL parser is a parameter; of a parsed URL only the parts are used that the
endpoint checks read. The host is the parser's serialisation, in which an IPv6
address stands in brackets.
-/

set_option autoImplicit false

namespace H3llo.Config
open H3llo.Net

structure Url where
  scheme : String
  username : String
  password : Option String
  hostStr : Option String
  port : Option UInt16
  path : String
  query : Option String
  fragment : Option String
  deriving DecidableEq, Repr

structure ApiEndpoint where
  host : String
  port : UInt16
  path : String
  deriving DecidableEq, Repr

def UdpEndpoint.serialize (endpoint : UdpEndpoint) : String :=
  "udp://" ++ endpoint.host ++ ":" ++ toString endpoint.port.toNat

def H3Endpoint.serialize (endpoint : H3Endpoint) : String :=
  if endpoint.port = 443 then "https://" ++ endpoint.host ++ endpoint.path
  else "https://" ++ endpoint.host ++ ":" ++ toString endpoint.port.toNat ++ endpoint.path

/-- The port is always written, since the default of the scheme is not that of the API. -/
def ApiEndpoint.serialize (endpoint : ApiEndpoint) : String :=
  "http://" ++ endpoint.host ++ ":" ++ toString endpoint.port.toNat ++ endpoint.path

/-- The parser, with the text of its errors. -/
abbrev UrlParser := String → Except String Url

/-- The host is an IPv4 literal, or an IPv6 literal in brackets. -/
def LiteralHost (host : String) (addr : IpAddr) : Prop :=
  match addr.family with
  | .v4 => parseIpAddr host = some addr
  | .v6 => ∃ text, host = "[" ++ text ++ "]" ∧ parseIpAddr text = some addr

variable (parseUrl : UrlParser)

def parseEndpointUri (raw expectedScheme : String) :
    Except String (String × Option UInt16 × String) :=
  match parseUrl raw with
  | .error text => .error text
  | .ok url =>
      -- The first failed check decides the error.
      if url.scheme ≠ expectedScheme then .error ("scheme must be " ++ expectedScheme)
      else if url.username ≠ "" ∨ url.password.isSome then .error "userinfo is not supported"
      else
        match url.hostStr.filter (· ≠ "") with
        | none => .error "host is required"
        | some host =>
            if url.query.isSome ∨ url.fragment.isSome then
              .error "query and fragment are not supported"
            else .ok (host, url.port, url.path)

def parseH3Uri (raw : String) : Except String H3Endpoint :=
  match parseEndpointUri parseUrl raw "https" with
  | .error text => .error text
  | .ok (host, port, path) => .ok ⟨host, port.getD 443, path⟩

def parseApiUri (raw : String) : Except String ApiEndpoint :=
  match parseEndpointUri parseUrl raw "http" with
  | .error text => .error text
  | .ok (host, port, path) => .ok ⟨host, port.getD 9090, path⟩

def parseUdpUri (raw : String) : Except String UdpEndpoint :=
  match parseEndpointUri parseUrl raw "udp" with
  | .error text => .error text
  | .ok (host, port, path) =>
      match port with
      | none => .error "port is required (e.g., udp://host:6635)"
      | some port =>
          if path ≠ "/" ∧ path ≠ "" then .error "path must be empty" else .ok ⟨host, port⟩

variable {parseUrl}

/-- An accepted URI has the scheme, a host, and otherwise only a port and a path. -/
theorem parseEndpointUri_eq_ok {raw scheme host path : String} {port : Option UInt16} :
    parseEndpointUri parseUrl raw scheme = .ok (host, port, path) ↔
      parseUrl raw = .ok ⟨scheme, "", none, some host, port, path, none, none⟩ ∧ host ≠ "" := by
  constructor
  · intro parsed
    unfold parseEndpointUri at parsed
    split at parsed
    next => cases parsed
    next url read =>
      split at parsed
      next => cases parsed
      next sameScheme =>
        split at parsed
        next => cases parsed
        next noUser =>
          split at parsed
          next => cases parsed
          next found hostFound =>
            split at parsed
            next => cases parsed
            next noTail =>
              cases parsed
              obtain ⟨hostStr, nonempty⟩ := Option.filter_eq_some_iff.mp hostFound
              obtain ⟨urlScheme, username, password, urlHost, urlPort, urlPath, query, fragment⟩ :=
                url
              simp only [ne_eq, Decidable.not_not, not_or,
                Option.isSome_iff_ne_none] at sameScheme noUser noTail hostStr
              obtain ⟨rfl, rfl⟩ := noUser
              obtain ⟨rfl, rfl⟩ := noTail
              subst sameScheme hostStr
              exact ⟨read, by simpa using nonempty⟩
  · rintro ⟨read, nonempty⟩
    have kept : (some host).filter (fun host => decide (host ≠ "")) = some host :=
      Option.filter_eq_some_iff.mpr ⟨rfl, by simpa⟩
    simp only [parseEndpointUri, read, kept, ne_eq, not_true_eq_false, Option.isSome_none,
      Bool.false_eq_true, or_self, if_false]

theorem parseH3Uri_eq_ok {raw : String} {endpoint : H3Endpoint} :
    parseH3Uri parseUrl raw = .ok endpoint ↔
    ∃ port, parseEndpointUri parseUrl raw "https" = .ok (endpoint.host, port, endpoint.path) ∧
      port.getD 443 = endpoint.port := by
  unfold parseH3Uri
  constructor
  · intro parsed
    split at parsed
    next => cases parsed
    next host port path accepted =>
      cases parsed
      exact ⟨port, accepted, rfl⟩
  · rintro ⟨port, accepted, same⟩
    simp only [accepted, same]

theorem parseApiUri_eq_ok {raw : String} {endpoint : ApiEndpoint} :
    parseApiUri parseUrl raw = .ok endpoint ↔
    ∃ port, parseEndpointUri parseUrl raw "http" = .ok (endpoint.host, port, endpoint.path) ∧
      port.getD 9090 = endpoint.port := by
  unfold parseApiUri
  constructor
  · intro parsed
    split at parsed
    next => cases parsed
    next host port path accepted =>
      cases parsed
      exact ⟨port, accepted, rfl⟩
  · rintro ⟨port, accepted, same⟩
    simp only [accepted, same]

theorem parseUdpUri_eq_ok {raw : String} {endpoint : UdpEndpoint} :
    parseUdpUri parseUrl raw = .ok endpoint ↔
    ∃ path, (path = "" ∨ path = "/") ∧ parseEndpointUri parseUrl raw "udp" =
      .ok (endpoint.host, some endpoint.port, path) := by
  unfold parseUdpUri
  constructor
  · intro parsed
    split at parsed
    next => cases parsed
    next host port path accepted =>
      split at parsed
      next => cases parsed
      next port =>
        split at parsed
        next => cases parsed
        next short =>
          cases parsed
          refine ⟨path, ?_, accepted⟩
          by_contra long
          rw [not_or] at long
          exact short ⟨long.2, long.1⟩
  · rintro ⟨path, short, accepted⟩
    rcases short with rfl | rfl <;> simp [accepted]

theorem parseEndpointUri_ok {raw scheme host path : String} {port : Option UInt16} {url : Url}
    (parsed : parseEndpointUri parseUrl raw scheme = .ok (host, port, path))
    (read : parseUrl raw = .ok url) :
    url.hostStr = some host ∧ url.port = port ∧ url.path = path := by
  have own := (parseEndpointUri_eq_ok.mp parsed).1
  rw [read] at own
  cases own
  exact ⟨rfl, rfl, rfl⟩

theorem host_parseH3Uri {raw : String} {endpoint : H3Endpoint} {url : Url}
    (parsed : parseH3Uri parseUrl raw = .ok endpoint) (read : parseUrl raw = .ok url) :
    url.hostStr = some endpoint.host := by
  obtain ⟨port, accepted, _⟩ := parseH3Uri_eq_ok.mp parsed
  exact (parseEndpointUri_ok accepted read).1

theorem host_parseUdpUri {raw : String} {endpoint : UdpEndpoint} {url : Url}
    (parsed : parseUdpUri parseUrl raw = .ok endpoint) (read : parseUrl raw = .ok url) :
    url.hostStr = some endpoint.host := by
  obtain ⟨path, _, accepted⟩ := parseUdpUri_eq_ok.mp parsed
  exact (parseEndpointUri_ok accepted read).1

end H3llo.Config
