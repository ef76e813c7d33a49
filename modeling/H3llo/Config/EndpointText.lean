import H3llo.Config.Endpoint
import H3llo.Net.UrlText

/-! Endpoint URIs as text.

The URL parser drops a port that is the default of the scheme. For HTTP/3 endpoints this is
harmless, since their default is the one of the scheme. The API has a default of its own.
-/

set_option autoImplicit false

namespace H3llo.Config
open H3llo.Net H3llo.Net.UrlText

/-- The text is read as a URL with the host and the path, and with nothing else but a port. -/
def Reads (parseUrl : UrlParser) (text scheme host path : String) : Prop :=
  ∃ port, parseUrl text = .ok ⟨scheme, "", none, some host, port, path, none, none⟩

/-- File URLs are apart, since they cannot have a port. -/
def Accepts (parseUrl : UrlParser) (raw : String) (url : Url) : Prop :=
  parseUrl raw = .ok url ∧ url.scheme ≠ "file"

/-- The parser follows the URL standard: which port it reports, and how it reads a host and a path
that it has written itself. -/
structure FollowsStandard (parseUrl : UrlParser) : Prop where
  port : ∀ raw url, Accepts parseUrl raw url →
    url.port.map UInt16.toNat = (writtenPort raw).filter fun port =>
      defaultPort url.scheme ≠ some port
  host : ∀ raw url host, Accepts parseUrl raw url → url.hostStr = some host → SerialisedHost host
  path : ∀ raw url, Accepts parseUrl raw url → url.hostStr.isSome → SerialisedPath url.path
  reparse : ∀ raw url host, Accepts parseUrl raw url → url.hostStr = some host → host ≠ "" →
    ∀ port : Option UInt16,
    Reads parseUrl (render url.scheme host (port.map UInt16.toNat) url.path) url.scheme
      host url.path
  noPath : ∀ raw url host, Accepts parseUrl raw url → url.hostStr = some host → host ≠ "" →
    ∀ port : Option UInt16,
    ∃ path, (path = "" ∨ path = "/") ∧
      Reads parseUrl (render url.scheme host (port.map UInt16.toNat) "") url.scheme host path

def EndpointScheme (scheme : String) : Prop := SerialisedScheme scheme ∧ scheme ≠ "file"

instance (scheme : String) : Decidable (EndpointScheme scheme) :=
  inferInstanceAs (Decidable (_ ∧ _))

@[simp] theorem defaultPort_udp : defaultPort "udp" = none := by decide

variable {parseUrl : UrlParser}

/-! ## Ports and serialised forms -/

section Standard

variable (standard : FollowsStandard parseUrl) {raw scheme host path : String}
  {port : Option UInt16}
  (parsed : parseEndpointUri parseUrl raw scheme = .ok (host, port, path))
    (ported : EndpointScheme scheme)
include parsed ported

theorem accepts_of_parsed :
    Accepts parseUrl raw ⟨scheme, "", none, some host, port, path, none, none⟩ :=
  ⟨(parseEndpointUri_eq_ok.mp parsed).1, ported.2⟩

include standard

theorem port_of_parsed :
    port.map UInt16.toNat = (writtenPort raw).filter fun written =>
      defaultPort scheme ≠ some written :=
  standard.port raw _ (accepts_of_parsed parsed ported)

theorem port_of_written {written : Nat} (isWritten : writtenPort raw = some written)
    (other : defaultPort scheme ≠ some written) (fallback : UInt16) :
    (port.getD fallback).toNat = written := by
  have reported := port_of_parsed standard parsed ported
  rw [isWritten] at reported
  have shown : port.map UInt16.toNat = some written := by
    simpa [other, Option.filter_some] using reported
  obtain ⟨found, rfl, same⟩ := Option.map_eq_some_iff.mp shown
  exact same

theorem parsed_of_reads {newPort : Option UInt16} {newPath readPath : String}
    (behind : SerialisedPath newPath)
    (reads : Reads parseUrl (render scheme host (newPort.map UInt16.toNat) newPath) scheme host
      readPath) :
    parseEndpointUri parseUrl (render scheme host (newPort.map UInt16.toNat) newPath) scheme =
      .ok (host, newPort.filter fun written => defaultPort scheme ≠ some written.toNat,
        readPath) := by
  have nonempty := (parseEndpointUri_eq_ok.mp parsed).2
  obtain ⟨again, readAgain⟩ := reads
  have serialised := standard.host raw _ host (accepts_of_parsed parsed ported) rfl
  have reported := standard.port _ _ ⟨readAgain, ported.2⟩
  rw [writtenPort_render ported.1 serialised _ nonempty behind] at reported
  have same : again = newPort.filter fun written => defaultPort scheme ≠ some written.toNat := by
    apply Option.map_injective (fun _ _ => UInt16.toNat_inj.mp)
    rw [reported, Option.filter_map]
    rfl
  rw [← same]
  exact parseEndpointUri_eq_ok.mpr ⟨readAgain, nonempty⟩

theorem parsed_again (newPort : Option UInt16) :
    parseEndpointUri parseUrl (render scheme host (newPort.map UInt16.toNat) path) scheme =
      .ok (host, newPort.filter fun written => defaultPort scheme ≠ some written.toNat, path) := by
  have accepts := accepts_of_parsed parsed ported
  apply parsed_of_reads standard parsed ported
  · exact standard.path raw _ accepts rfl
  · exact standard.reparse raw _ host accepts rfl (parseEndpointUri_eq_ok.mp parsed).2 newPort

theorem parsed_noPath (newPort : Option UInt16) :
    ∃ newPath, (newPath = "" ∨ newPath = "/") ∧
      parseEndpointUri parseUrl (render scheme host (newPort.map UInt16.toNat) "") scheme =
        .ok (host, newPort.filter fun written => defaultPort scheme ≠ some written.toNat,
          newPath) := by
  obtain ⟨newPath, short, reads⟩ := standard.noPath raw _ host (accepts_of_parsed parsed ported) rfl
    (parseEndpointUri_eq_ok.mp parsed).2 newPort
  exact ⟨newPath, short, parsed_of_reads standard parsed ported (.inl rfl) reads⟩

end Standard

theorem UdpEndpoint.serialize_eq (endpoint : UdpEndpoint) :
    endpoint.serialize = render "udp" endpoint.host ((some endpoint.port).map UInt16.toNat) "" := by
  rw [Option.map_some, render_some, String.append_empty]
  rfl

theorem ApiEndpoint.serialize_eq (endpoint : ApiEndpoint) :
    endpoint.serialize = render "http" endpoint.host ((some endpoint.port).map UInt16.toNat)
      endpoint.path := by
  rw [Option.map_some, render_some]
  rfl

theorem H3Endpoint.serialize_eq (endpoint : H3Endpoint) :
    endpoint.serialize = render "https" endpoint.host
    (((some endpoint.port).filter fun port => port ≠ 443).map UInt16.toNat) endpoint.path := by
  by_cases elided : endpoint.port = 443
  · have hidden : (some endpoint.port).filter (fun port => decide (port ≠ 443)) = none := by
      simp [elided]
    rw [hidden, Option.map_none, render_none]
    exact if_pos elided
  · have shown : (some endpoint.port).filter (fun port => decide (port ≠ 443)) =
        some endpoint.port := by simp [elided]
    rw [shown, Option.map_some, render_some]
    exact if_neg elided

/-! ## Endpoints keep their text -/

/-- A written port is the port of the endpoint, and its serialised form is read as the same
endpoint. -/
structure Keeps {Endpoint : Type} (parse : String → Except String Endpoint)
    (serialize : Endpoint → String) (portOf : Endpoint → UInt16) (raw : String)
    (endpoint : Endpoint) : Prop where
  port : ∀ port, writtenPort raw = some port → (portOf endpoint).toNat = port
  serialised : parse (serialize endpoint) = .ok endpoint

section Keeping

variable (standard : FollowsStandard parseUrl) {raw : String}
include standard

theorem keeps_udp {endpoint : UdpEndpoint} (parsed : parseUdpUri parseUrl raw = .ok endpoint) :
    Keeps (parseUdpUri parseUrl) UdpEndpoint.serialize UdpEndpoint.port raw endpoint := by
  obtain ⟨path, _, accepted⟩ := parseUdpUri_eq_ok.mp parsed
  constructor
  · intro port written
    exact port_of_written standard accepted (by decide) written (by simp) endpoint.port
  · obtain ⟨newPath, short, again⟩ := parsed_noPath standard accepted (by decide)
      (some endpoint.port)
    rw [UdpEndpoint.serialize_eq, parseUdpUri_eq_ok]
    refine ⟨newPath, short, ?_⟩
    simpa [Option.filter_some] using again

theorem keeps_h3 {endpoint : H3Endpoint} (parsed : parseH3Uri parseUrl raw = .ok endpoint) :
    Keeps (parseH3Uri parseUrl) H3Endpoint.serialize H3Endpoint.port raw endpoint := by
  obtain ⟨port, accepted, own⟩ := parseH3Uri_eq_ok.mp parsed
  constructor
  · intro written isWritten
    rw [← own]
    by_cases elided : written = 443
    · have reported := port_of_parsed standard accepted (by decide)
      rw [isWritten] at reported
      have unreported : port = none := by simpa [elided, Option.filter_some] using reported
      rw [unreported, elided]
      rfl
    · apply port_of_written standard accepted (by decide) isWritten
      simpa using Ne.symm elided
  · have again := parsed_again standard accepted (by decide)
      ((some endpoint.port).filter fun port => port ≠ 443)
    rw [H3Endpoint.serialize_eq, parseH3Uri_eq_ok]
    refine ⟨_, again, ?_⟩
    by_cases elided : endpoint.port = 443
    · simp [elided, Option.filter_some]
    · have apart : endpoint.port.toNat ≠ 443 := fun same => elided (UInt16.toNat_inj.mp same)
      simp [elided, Option.filter_some, Ne.symm apart]

theorem keeps_api_iff {endpoint : ApiEndpoint} (parsed : parseApiUri parseUrl raw = .ok endpoint) :
    parseApiUri parseUrl endpoint.serialize = .ok endpoint ∧
      (Keeps (parseApiUri parseUrl) ApiEndpoint.serialize ApiEndpoint.port raw endpoint ↔
        writtenPort raw ≠ some 80) := by
  obtain ⟨port, accepted, own⟩ := parseApiUri_eq_ok.mp parsed
  have reported := port_of_parsed standard accepted (by decide)
  have shown : endpoint.port.toNat ≠ 80 := by
    intro isDefault
    cases port with
    | none =>
      rw [← own] at isDefault
      exact absurd isDefault (by decide)
    | some port =>
      rw [← own] at isDefault
      obtain ⟨_, other⟩ := Option.filter_eq_some_iff.mp reported.symm
      simp only [Option.getD_some] at isDefault
      rw [isDefault] at other
      exact absurd other (by decide)
  have serialised : parseApiUri parseUrl endpoint.serialize = .ok endpoint := by
    have again := parsed_again standard accepted (by decide) (some endpoint.port)
    rw [ApiEndpoint.serialize_eq, parseApiUri_eq_ok]
    refine ⟨_, again, ?_⟩
    simp [Option.filter_some, Ne.symm shown]
  refine ⟨serialised, ?_, fun apart => ⟨fun written isWritten => ?_, serialised⟩⟩
  · intro keeps isDefault
    exact shown (keeps.port 80 isDefault)
  · rw [← own]
    apply port_of_written standard accepted (by decide) isWritten
    rw [defaultPort_http, ← isWritten]
    exact Ne.symm apart

end Keeping

/-- A URI keeps its port and its serialised form, unless it is one of the API with port 80, of which
only the serialised form is kept. -/
theorem endpoint_text_iff {parseUrl : UrlParser} (standard : FollowsStandard parseUrl)
    (raw : String) :
    (∀ endpoint, parseUdpUri parseUrl raw = .ok endpoint →
      Keeps (parseUdpUri parseUrl) UdpEndpoint.serialize UdpEndpoint.port raw endpoint) ∧
    (∀ endpoint, parseH3Uri parseUrl raw = .ok endpoint →
      Keeps (parseH3Uri parseUrl) H3Endpoint.serialize H3Endpoint.port raw endpoint) ∧
    (∀ endpoint, parseApiUri parseUrl raw = .ok endpoint →
      parseApiUri parseUrl endpoint.serialize = .ok endpoint ∧
        (Keeps (parseApiUri parseUrl) ApiEndpoint.serialize ApiEndpoint.port raw endpoint ↔
          writtenPort raw ≠ some 80)) := by
  refine ⟨?_, ?_, ?_⟩
  · intro endpoint parsed
    exact keeps_udp standard parsed
  · intro endpoint parsed
    exact keeps_h3 standard parsed
  · intro endpoint parsed
    exact keeps_api_iff standard parsed

/-! ## A parser of plain URLs -/

/-- A host name or an IPv4 address, and a path of plain segments. -/
structure PlainUrl (scheme host : String) (port : Option Nat) (path : String) : Prop where
  known : scheme ∈ ["udp", "http", "https"]
  named : host ≠ ""
  hostChars : host.toList.all fun char => char.isLower || char.isDigit || char = '.' || char = '-'
  small : ∀ value ∈ port, value < 65536
  behind : path = "" ∨ path.toList.head? = some '/'
  pathChars : path.toList.all fun char => char.isAlphanum || char = '/'

instance (scheme host : String) (port : Option Nat) (path : String) :
    Decidable (PlainUrl scheme host port path) :=
  decidable_of_iff
    (scheme ∈ ["udp", "http", "https"] ∧ host ≠ "" ∧
      (host.toList.all fun char => char.isLower || char.isDigit || char = '.' || char = '-') ∧
      (∀ value ∈ port, value < 65536) ∧ (path = "" ∨ path.toList.head? = some '/') ∧
      path.toList.all fun char => char.isAlphanum || char = '/')
    ⟨fun ⟨known, named, hostChars, small, behind, pathChars⟩ =>
      ⟨known, named, hostChars, small, behind, pathChars⟩,
      fun plain => ⟨plain.known, plain.named, plain.hostChars, plain.small, plain.behind,
        plain.pathChars⟩⟩

def plainUrl (scheme host : String) (port : Option Nat) (path : String) : Url where
  scheme := scheme
  username := ""
  password := none
  hostStr := some host
  port := (port.filter fun port => defaultPort scheme ≠ some port).map UInt16.ofNat
  -- special URLs have a path in any case
  path := if path = "" ∧ isSpecial scheme then "/" else path
  query := none
  fragment := none

def parsePlain : UrlParser := fun raw =>
  match parts raw with
  | none => .error "relative URL without a base"
  | some (scheme, host, port, path) =>
      if PlainUrl scheme host port path ∧ render scheme host port path = raw then
        .ok (plainUrl scheme host port path)
      else .error "not a plain URL"

namespace PlainUrl

variable {scheme host path : String} {port : Option Nat} (plain : PlainUrl scheme host port path)
include plain

theorem endpointScheme : EndpointScheme scheme := by
  have all : (["udp", "http", "https"].all fun scheme => decide (EndpointScheme scheme)) =
      true := by decide
  exact of_decide_eq_true (List.all_eq_true.mp all scheme plain.known)

theorem serialisedHost : SerialisedHost host := by
  have apart : (forbiddenHostChars.all fun char =>
      !(char.isLower || char.isDigit || char = '.' || char = '-')) = true := by
    decide
  refine .inl fun char member forbidden => ?_
  have own := List.all_eq_true.mp plain.hostChars char member
  have other := List.all_eq_true.mp apart char forbidden
  rw [own] at other
  cases other

theorem parsePlain_render :
    parsePlain (render scheme host port path) = .ok (plainUrl scheme host port path) := by
  have found := parts_render plain.endpointScheme.1 plain.serialisedHost port plain.named
    plain.behind
  unfold parsePlain
  rw [found]
  exact if_pos ⟨plain, rfl⟩

theorem reads :
    Reads parsePlain (render scheme host port path) scheme host
      (plainUrl scheme host port path).path :=
  ⟨_, plain.parsePlain_render⟩

theorem port_plainUrl : (plainUrl scheme host port path).port.map UInt16.toNat =
    port.filter fun port => defaultPort scheme ≠ some port := by
  cases port with
  | none => rfl
  | some value =>
    have fits : (UInt16.ofNat value).toNat = value :=
      UInt16.toNat_ofNat_of_lt (plain.small value rfl)
    by_cases isDefault : defaultPort scheme = some value
    · simp [plainUrl, Option.filter_some, isDefault]
    · simp [plainUrl, Option.filter_some, isDefault, fits]

theorem withPath {newPath : String} (behind : newPath = "" ∨ newPath.toList.head? = some '/')
    (chars : newPath.toList.all fun char => char.isAlphanum || char = '/')
    (newPort : Option UInt16) :
    PlainUrl scheme host (newPort.map UInt16.toNat) newPath where
  known := plain.known
  named := plain.named
  hostChars := plain.hostChars
  small := by
    intro value member
    obtain ⟨port, _, rfl⟩ := Option.map_eq_some_iff.mp member
    exact port.toNat_lt
  behind := behind
  pathChars := chars

theorem read (newPort : Option UInt16) :
    PlainUrl scheme host (newPort.map UInt16.toNat) (plainUrl scheme host port path).path := by
  by_cases rooted : path = "" ∧ isSpecial scheme
  · simp only [plainUrl, rooted, and_self, if_true]
    exact plain.withPath (.inr rfl) rfl newPort
  · simp only [plainUrl, rooted, if_false]
    exact plain.withPath plain.behind plain.pathChars newPort

end PlainUrl

theorem path_plainUrl_again (scheme host path : String) (port newPort : Option Nat) :
    (plainUrl scheme host newPort (plainUrl scheme host port path).path).path =
      (plainUrl scheme host port path).path := by
  by_cases rooted : path = "" ∧ isSpecial scheme
  · simp [plainUrl, rooted]
  · simp only [plainUrl, rooted, if_false]

theorem parsePlain_eq_ok {raw : String} {url : Url} (accepted : parsePlain raw = .ok url) :
    ∃ scheme host port path, PlainUrl scheme host port path ∧ render scheme host port path = raw ∧
      plainUrl scheme host port path = url := by
  unfold parsePlain at accepted
  split at accepted
  next => cases accepted
  next scheme host port path found =>
    split at accepted
    next written =>
      cases accepted
      exact ⟨scheme, host, port, path, written.1, written.2, rfl⟩
    next => cases accepted

theorem parsePlain_followsStandard : FollowsStandard parsePlain where
  port := by
    rintro raw url ⟨accepted, _⟩
    obtain ⟨scheme, host, port, path, plain, rfl, rfl⟩ := parsePlain_eq_ok accepted
    rw [writtenPort_render plain.endpointScheme.1 plain.serialisedHost port plain.named
      plain.behind]
    exact plain.port_plainUrl
  host := by
    rintro raw url host ⟨accepted, _⟩ hosted
    obtain ⟨scheme, _, port, path, plain, rfl, rfl⟩ := parsePlain_eq_ok accepted
    cases hosted
    exact plain.serialisedHost
  path := by
    rintro raw url ⟨accepted, _⟩ _
    obtain ⟨scheme, host, port, path, plain, rfl, rfl⟩ := parsePlain_eq_ok accepted
    exact (plain.read none).behind
  reparse := by
    rintro raw url host ⟨accepted, _⟩ hosted nonempty newPort
    obtain ⟨scheme, _, port, path, plain, rfl, rfl⟩ := parsePlain_eq_ok accepted
    cases hosted
    have again := (plain.read newPort).reads
    rw [path_plainUrl_again] at again
    exact again
  noPath := by
    rintro raw url host ⟨accepted, _⟩ hosted nonempty newPort
    obtain ⟨scheme, _, port, path, plain, rfl, rfl⟩ := parsePlain_eq_ok accepted
    cases hosted
    refine ⟨_, ?_, (plain.withPath (.inl rfl) rfl newPort).reads⟩
    simp only [plainUrl, true_and]
    split
    · exact .inr rfl
    · exact .inl rfl

/-- Written ports and serialised forms are kept for a port of a tunnel, for the default port of
HTTP/3, and for a port of the API other than 80. -/
theorem endpoint_text_sample :
    Keeps (parseUdpUri parsePlain) UdpEndpoint.serialize UdpEndpoint.port "udp://192.0.2.1:6635"
      ⟨"192.0.2.1", 6635⟩ ∧
    Keeps (parseH3Uri parsePlain) H3Endpoint.serialize H3Endpoint.port
      "https://relay.example:443/tunnel"
      ⟨"relay.example", 443, "/tunnel"⟩ ∧
    Keeps (parseApiUri parsePlain) ApiEndpoint.serialize ApiEndpoint.port "http://127.0.0.1:8080/"
      ⟨"127.0.0.1", 8080, "/"⟩ := by
  refine ⟨?_, ?_, ?_⟩
  · exact (endpoint_text_iff parsePlain_followsStandard "udp://192.0.2.1:6635").1 _
      (by decide +kernel)
  · exact (endpoint_text_iff parsePlain_followsStandard "https://relay.example:443/tunnel").2.1 _
      (by decide +kernel)
  · have api := (endpoint_text_iff parsePlain_followsStandard "http://127.0.0.1:8080/").2.2
      ⟨"127.0.0.1", 8080, "/"⟩
    exact (api (by decide +kernel)).2.mpr (by decide +kernel)

theorem api_port_lost :
    FollowsStandard parsePlain ∧ writtenPort "http://127.0.0.1:80/" = some 80 ∧
      parseApiUri parsePlain "http://127.0.0.1:80/" = .ok ⟨"127.0.0.1", 9090, "/"⟩ ∧
      ¬ Keeps (parseApiUri parsePlain) ApiEndpoint.serialize ApiEndpoint.port "http://127.0.0.1:80/"
        ⟨"127.0.0.1", 9090, "/"⟩ := by
  have written : writtenPort "http://127.0.0.1:80/" = some 80 := by decide +kernel
  refine ⟨parsePlain_followsStandard, written, by decide +kernel, ?_⟩
  intro keeps
  have same : (9090 : UInt16).toNat = 80 := keeps.port 80 written
  exact absurd same (by decide)

end H3llo.Config
