import H3llo.Config.Endpoint
import H3llo.Dns.Actor

/-! One exchange with the DNS server: the request, and which packets answer it.

Domain names belong to a library of their own, so they are a class here: texts are
read and written, and a name that travels in a packet is read back fully qualified
with the case of its letters.
-/

set_option autoImplicit false

namespace H3llo.Dns
open H3llo.Net H3llo.Config

def endsWithDot (text : String) : Bool := text.toList.getLast? == some '.'

/-- Domain names, as far as the resolver uses them. -/
class DomainName (Name : Type) where
  fromAscii : String → Except String Name
  toAscii : Name → String
  /-- The name that is decoded from a packet into which this one was encoded. -/
  received : Name → Name
  /-- A text without escapes comes back with one dot at its end. -/
  toAscii_received {text : String} {name : Name} : fromAscii text = .ok name → '\\' ∉ text.toList →
    toAscii (received name) = if endsWithDot text then text else text ++ "."

open DomainName (fromAscii toAscii received)

/-- A question; the type is `none` if it is neither A nor AAAA. -/
structure Question (Name : Type) where
  name : Name
  queryType : Option RecordType
  deriving DecidableEq, Repr

structure Request (Name : Type) where
  id : UInt16
  question : Question Name
  deriving DecidableEq, Repr

structure Response (Name : Type) where
  id : UInt16
  truncation : Bool
  queries : List (Question Name)
  message : Message
  deriving DecidableEq, Repr

/-- What the socket returns: an error, bytes that do not decode, or a message. -/
inductive Received (Name : Type) where
  | failed (error : String)
  | undecodable
  | decoded (response : Response Name)
  deriving DecidableEq, Repr

def stripTrailingDot (text : String) : String :=
  if endsWithDot text then String.ofList text.toList.dropLast else text

def toAsciiLowercase (text : String) : String := text.map Char.toLower

section Exchange

variable {Name : Type} [DomainName Name]

def normalizeDnsName (name : Name) : String := toAsciiLowercase (stripTrailingDot (toAscii name))

def makeRequest (id : UInt16) (query : DnsQuery) : Except String (Request Name) :=
  match fromAscii query.hostname with
  | .error text => .error text
  | .ok name => .ok ⟨id, ⟨name, some query.recordType⟩⟩

def answersQuery (id : UInt16) (query : DnsQuery) (response : Response Name) : Bool :=
  response.id == id && response.queries.head?.any fun question =>
    question.queryType == some query.recordType && normalizeDnsName question.name == query.hostname

/-- The receive loop over the packets that arrive; `none` while it waits for more. -/
def receive (id : UInt16) (query : DnsQuery) :
    List (Received Name) → Option (Except String (Response Name))
  | [] => none
  | .failed error :: _ => some (.error ("receive DNS response: " ++ error))
  | .undecodable :: rest => receive id query rest
  | .decoded response :: rest =>
      if !answersQuery id query response then receive id query rest
      -- A truncated answer counts as packet loss.
      else if response.truncation then receive id query rest
      else some (.ok response)

def exchange (socket sent : Except String Unit) (id : UInt16) (query : DnsQuery)
    (packets : List (Received Name)) : Option (Except String (Response Name)) :=
  match socket with
  | .error text => some (.error text)
  | .ok () =>
      match (makeRequest id query : Except String (Request Name)) with
      | .error text => some (.error text)
      | .ok _ =>
          match sent with
          | .error text => some (.error text)
          | .ok () => receive id query packets

/-- The response repeats the transaction id and the question of a request. -/
structure Echoes (request : Request Name) (response : Response Name) : Prop where
  id : response.id = request.id
  question : response.queries.head? =
    some { request.question with name := received request.question.name }

/-! ## The loop -/

def Skipped (id : UInt16) (query : DnsQuery) : Received Name → Prop
  | .failed _ => False
  | .undecodable => True
  | .decoded response => answersQuery id query response = false ∨ response.truncation = true

variable {id : UInt16} {query : DnsQuery}

theorem receive_skipped {packets : List (Received Name)}
    (skipped : ∀ packet ∈ packets, Skipped id query packet) (later : List (Received Name)) :
    receive id query (packets ++ later) = receive id query later := by
  induction packets with
  | nil => rfl
  | cons packet rest ih =>
    have remaining := ih fun other member => skipped other (List.mem_cons_of_mem packet member)
    have first := skipped packet List.mem_cons_self
    cases packet with
    | failed error => exact first.elim
    | undecodable => exact remaining
    | decoded response =>
      rcases first with mismatched | truncated
      · simpa [receive, mismatched] using remaining
      · simpa [receive, truncated] using remaining

theorem receive_ok {packets : List (Received Name)} {response : Response Name}
    (returned : receive id query packets = some (.ok response)) :
    answersQuery id query response = true ∧ response.truncation = false := by
  induction packets with
  | nil => cases returned
  | cons packet rest ih =>
    cases packet with
    | failed error => cases returned
    | undecodable => exact ih returned
    | decoded first =>
      unfold receive at returned
      split at returned
      next => exact ih returned
      next answers =>
        split at returned
        next => exact ih returned
        next complete =>
          cases returned
          exact ⟨by simpa using answers, by simpa using complete⟩

/-! ## Names as they are compared -/

def Normalized (text : String) : Prop :=
  (∀ c ∈ text.toList, c.isUpper = false) ∧ endsWithDot text = false

instance (text : String) : Decidable (Normalized text) :=
  decidable_of_iff ((text.toList.all fun c => !c.isUpper) = true ∧ endsWithDot text = false)
    (by simp [Normalized])

theorem toLower_eq_self (c : Char) : c.toLower = c ↔ c.isUpper = false := by
  unfold Char.toLower Char.isUpper
  by_cases capital : c.val ≥ 'A'.val ∧ c.val ≤ 'Z'.val
  · -- a capital moves by 32 positions
    rw [dif_pos capital, decide_eq_true capital, Char.ext_iff]
    simp
  · rw [dif_neg capital, decide_eq_false capital]
    simp

theorem toAsciiLowercase_eq_self (text : String) :
    toAsciiLowercase text = text ↔ ∀ c ∈ text.toList, c.isUpper = false := by
  rw [toAsciiLowercase, ← String.toList_inj, String.toList_map]
  conv_lhs => rhs; rw [← List.map_id text.toList]
  rw [List.map_inj_left]
  exact forall₂_congr fun c _ => toLower_eq_self c

theorem stripTrailingDot_append (text : String) : stripTrailingDot (text ++ ".") = text := by
  have dotted : endsWithDot (text ++ ".") = true := by simp [endsWithDot]
  rw [stripTrailingDot, if_pos dotted, ← String.toList_inj, String.toList_ofList,
    String.toList_append]
  exact List.dropLast_concat

theorem normalizeDnsName_received {text : String} {name : Name}
    (named : fromAscii text = .ok name) (unescaped : '\\' ∉ text.toList) :
    normalizeDnsName (received name) = text ↔ Normalized text := by
  rw [normalizeDnsName, DomainName.toAscii_received named unescaped]
  cases dotted : endsWithDot text with
  | true =>
    -- the dot is stripped and nothing puts it back
    have shorter : (toAsciiLowercase (stripTrailingDot text)).toList.length <
        text.toList.length := by
      have nonempty : text.toList ≠ [] := by
        intro empty
        simp [endsWithDot, empty] at dotted
      rw [toAsciiLowercase, String.toList_map, List.length_map, stripTrailingDot, if_pos dotted,
        String.toList_ofList, List.length_dropLast]
      exact Nat.sub_lt (List.length_pos_iff.mpr nonempty) Nat.one_pos
    have different : toAsciiLowercase (stripTrailingDot text) ≠ text := by
      intro same
      rw [same] at shorter
      exact absurd shorter (lt_irrefl _)
    simp [Normalized, dotted, different]
  | false =>
    rw [if_neg (by simp), stripTrailingDot_append, toAsciiLowercase_eq_self]
    simp [Normalized, dotted]

theorem answersQuery_of_echoes {request : Request Name}
    (made : makeRequest id query = .ok request) (unescaped : '\\' ∉ query.hostname.toList)
    {response : Response Name} (echo : Echoes request response) :
    answersQuery id query response = true ↔ Normalized query.hostname := by
  unfold makeRequest at made
  split at made
  next => cases made
  next name named =>
    cases made
    rw [← normalizeDnsName_received named unescaped]
    simp [answersQuery, echo.id, echo.question]

end Exchange

/-! ## Configured hosts -/

/-- The host is that of an endpoint which one of the URI parsers accepts. -/
def Configured (parseUrl : UrlParser) (host : String) : Prop :=
  (∃ raw endpoint, parseUdpUri parseUrl raw = .ok endpoint ∧ endpoint.host = host) ∨
    ∃ raw endpoint, parseH3Uri parseUrl raw = .ok endpoint ∧ endpoint.host = host

/-- A backslash is a forbidden host code point: no host contains one. -/
def UnescapedHosts (parseUrl : UrlParser) : Prop :=
  ∀ raw url, parseUrl raw = .ok url → ∀ host, url.hostStr = some host → '\\' ∉ host.toList

theorem Configured.unescaped {parseUrl : UrlParser} (hosts : UnescapedHosts parseUrl)
    {host : String} (configured : Configured parseUrl host) : '\\' ∉ host.toList := by
  rcases configured with ⟨raw, endpoint, parsed, rfl⟩ | ⟨raw, endpoint, parsed, rfl⟩
  · cases read : parseUrl raw with
    | error text => simp [parseUdpUri, parseEndpointUri, read] at parsed
    | ok url => exact hosts raw url read _ (host_parseUdpUri parsed read)
  · cases read : parseUrl raw with
    | error text => simp [parseH3Uri, parseEndpointUri, read] at parsed
    | ok url => exact hosts raw url read _ (host_parseH3Uri parsed read)

/-- The first complete echo of a query that was sent is returned, exactly if the
host is written without capitals and without a dot at its end. -/
theorem exchange_echo_iff {Name : Type} [DomainName Name] {parseUrl : UrlParser}
    (hosts : UnescapedHosts parseUrl) {query : DnsQuery}
    (configured : Configured parseUrl query.hostname) {id : UInt16} {request : Request Name}
    (made : makeRequest id query = .ok request) {earlier : List (Received Name)}
    (skipped : ∀ packet ∈ earlier, Skipped id query packet) {response : Response Name}
    (echo : Echoes request response) (complete : response.truncation = false)
    (later : List (Received Name)) :
    exchange (.ok ()) (.ok ()) id query (earlier ++ .decoded response :: later) =
      some (.ok response) ↔
      Normalized query.hostname := by
  have answers := answersQuery_of_echoes made (configured.unescaped hosts) echo
  have loop : exchange (.ok ()) (.ok ()) id query (earlier ++ .decoded response :: later) =
      receive id query (.decoded response :: later) := by
    simp only [exchange, made]
    exact receive_skipped skipped _
  rw [loop, ← answers]
  constructor
  · exact fun returned => (receive_ok returned).1
  · intro answered
    simp [receive, answered, complete]

/-! ### Sample library -/

structure PlainName where
  text : String
  deriving DecidableEq, Repr

instance : DomainName PlainName where
  fromAscii text :=
    if text.toList.all fun c => c.isAlphanum || c == '-' || c == '.' then
      .ok ⟨text⟩
    else .error "Malformed label"
  toAscii name := name.text
  received name := if endsWithDot name.text then name else ⟨name.text ++ "."⟩
  toAscii_received {text name} parsed _ := by
    split at parsed
    next =>
      cases parsed
      split <;> rfl
    next => cases parsed

/-- Results of the URL parser: only hosts of special schemes are put in lower case. -/
def namedUrls : UrlParser := fun raw =>
  if raw = "udp://Node.example:6635" then
    .ok ⟨"udp", "", none, some "Node.example", some 6635, "", none, none⟩
  else if raw = "https://Node.example/" then
    .ok ⟨"https", "", none, some "node.example", none, "/", none, none⟩
  else if raw = "https://node.example./" then
    .ok ⟨"https", "", none, some "node.example.", none, "/", none, none⟩
  else .error "relative URL without a base"

theorem unescapedHosts_namedUrls : UnescapedHosts namedUrls := by
  intro raw url parsed host found
  unfold namedUrls at parsed
  split_ifs at parsed <;> cases parsed <;> cases found <;> decide

def echoOf (host : String) : Response PlainName :=
  ⟨7, false, [⟨received ⟨host⟩, some .a⟩], ⟨.noError, []⟩⟩

theorem exchange_echo_lowercase :
    exchange (.ok ()) (.ok ()) 7 ⟨"node.example", .a⟩
      [.undecodable, .decoded (echoOf "node.example")] =
      some (.ok (echoOf "node.example")) := by
  have configured : Configured namedUrls "node.example" :=
    .inr ⟨"https://Node.example/", ⟨"node.example", 443, "/"⟩, rfl, rfl⟩
  have made : makeRequest 7 ⟨"node.example", .a⟩ =
      .ok (⟨7, ⟨⟨"node.example"⟩, some .a⟩⟩ : Request PlainName) := by
    decide +kernel
  have skipped : ∀ packet ∈ [(.undecodable : Received PlainName)],
      Skipped 7 ⟨"node.example", .a⟩ packet := by
    simp [Skipped]
  exact (exchange_echo_iff unescapedHosts_namedUrls configured made skipped ⟨rfl, rfl⟩ rfl []).mpr
    (by decide +kernel)

theorem exchange_skips_echo :
    Configured namedUrls "Node.example" ∧ Configured namedUrls "node.example." ∧
      ∀ host ∈ ["Node.example", "node.example."],
        parseIpAddr host = none ∧
          (makeRequest 7 ⟨host, .a⟩ : Except String (Request PlainName)) =
            .ok ⟨7, ⟨⟨host⟩, some .a⟩⟩ ∧
          Echoes ⟨7, ⟨⟨host⟩, some .a⟩⟩ (echoOf host) ∧ (echoOf host).truncation = false ∧
          exchange (.ok ()) (.ok ()) 7 ⟨host, .a⟩ [.decoded (echoOf host)] = none := by
  refine ⟨.inl ⟨"udp://Node.example:6635", ⟨"Node.example", 6635⟩, rfl, rfl⟩,
    .inr ⟨"https://node.example./", ⟨"node.example.", 443, "/"⟩, rfl, rfl⟩, ?_⟩
  simp only [List.forall_mem_cons, List.not_mem_nil, false_imp_iff, implies_true, and_true]
  exact ⟨⟨by decide +kernel, by decide +kernel, ⟨rfl, rfl⟩, rfl, by decide +kernel⟩,
    by decide +kernel, by decide +kernel, ⟨rfl, rfl⟩, rfl, by decide +kernel⟩

end H3llo.Dns
