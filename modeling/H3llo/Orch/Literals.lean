import H3llo.Basis.Runs
import H3llo.Config.Endpoint
import H3llo.Orch.Orchestrator

/-! Endpoints that name an IP address.

A literal travels from the URI through the peer's hostname to the resolver, which
records the address that the text spells and never queries it. The brackets of an
IPv6 host are stripped for HTTP/3 only, so the resolver takes the host of a bare
IPv6 endpoint for a name.
-/

set_option autoImplicit false

namespace H3llo.Orch
open H3llo.Net H3llo.Config H3llo.Dns H3llo.Router H3llo.Runs

/-! ## Brackets -/

theorem dropWhile_of_forall_not {p : Char → Bool} {chars : List Char}
    (none : ∀ char ∈ chars, p char = false) : chars.dropWhile p = chars := by
  cases chars with
  | nil => rfl
  | cons head rest => simp [none head List.mem_cons_self]

theorem addressChar_ne {char bracket : Char} (spelled : AddressChar char)
    (other : ¬ AddressChar bracket) : decide (char = bracket) = false := by
  rw [decide_eq_false_iff_not]
  rintro rfl
  exact other spelled

theorem stripIpv6Brackets_text {text : String} (spelled : ∀ char ∈ text.toList, AddressChar char) :
    stripIpv6Brackets text = text := by
  unfold stripIpv6Brackets
  rw [dropWhile_of_forall_not fun char member => addressChar_ne (spelled char member) (by decide),
    dropWhile_of_forall_not fun char member => addressChar_ne
      (spelled char (List.mem_reverse.mp member)) (by decide),
    List.reverse_reverse, String.ofList_toList]

theorem stripIpv6Brackets_bracketed {text : String}
    (spelled : ∀ char ∈ text.toList, AddressChar char) :
    stripIpv6Brackets ("[" ++ text ++ "]") = text := by
  have opening : (text.toList ++ [']']).dropWhile (· = '[') = text.toList ++ [']'] := by
    apply dropWhile_of_forall_not
    intro char member
    rcases List.mem_append.mp member with inside | closing
    · exact addressChar_ne (spelled char inside) (by decide)
    · rw [List.mem_singleton.mp closing]
      rfl
  have closing : text.toList.reverse.dropWhile (· = ']') = text.toList.reverse := by
    apply dropWhile_of_forall_not
    intro char member
    exact addressChar_ne (spelled char (List.mem_reverse.mp member)) (by decide)
  have chars : ("[" ++ text ++ "]").toList = '[' :: (text.toList ++ [']']) := by
    simp [String.toList_append]
  unfold stripIpv6Brackets
  rw [chars, List.dropWhile_cons_of_pos (by rfl), opening, List.reverse_append,
    List.reverse_singleton,
    List.singleton_append, List.dropWhile_cons_of_pos (by rfl), closing, List.reverse_reverse,
      String.ofList_toList]

theorem parseIpAddr_bracketed (text : String) : parseIpAddr ("[" ++ text ++ "]") = none := by
  cases parsed : parseIpAddr ("[" ++ text ++ "]") with
  | none => rfl
  | some addr =>
    have bracket : AddressChar '[' := by
      apply parseIpAddr_chars parsed
      simp [String.toList_append]
    exact absurd bracket (by decide)

/-! ## Literal endpoints -/

def Endpoint.hostname : Endpoint → String
  | .udp endpoint => endpoint.host
  | .h3 endpoint => stripIpv6Brackets endpoint.host

theorem peerDnsHostname_of_endpoint {peer : Peer} {endpoint : Endpoint}
    (configured : transportEndpoint peer.transport = some endpoint) :
    peerDnsHostname peer = some endpoint.hostname := by
  unfold peerDnsHostname
  cases transport : peer.transport with
  | bare options =>
    rw [transport] at configured
    cases configured
    rfl
  | h3 options =>
    rw [transport] at configured
    obtain ⟨parsed, used, rfl⟩ := Option.map_eq_some_iff.mp configured
    simp only [transportHostname, used, Option.map_some, Endpoint.hostname]

/-- The endpoint was parsed from a URI whose host is a literal for the address. -/
inductive FromLiteral (parseUrl : UrlParser) (addr : IpAddr) : Endpoint → Prop where
  | bare {raw host : String} {url : Url} {endpoint : UdpEndpoint}
      (parsed : parseUdpUri parseUrl raw = .ok endpoint) (read : parseUrl raw = .ok url)
      (named : url.hostStr = some host) (literal : LiteralHost host addr) :
      FromLiteral parseUrl addr (.udp endpoint)
  | h3 {raw host : String} {url : Url} {endpoint : H3Endpoint}
      (parsed : parseH3Uri parseUrl raw = .ok endpoint) (read : parseUrl raw = .ok url)
      (named : url.hostStr = some host) (literal : LiteralHost host addr) :
      FromLiteral parseUrl addr (.h3 endpoint)

def KeepsBrackets (endpoint : Endpoint) (addr : IpAddr) : Prop :=
  match endpoint with
  | .udp _ => addr.family = .v6
  | .h3 _ => False

section Hostname

variable {parseUrl : UrlParser} {addr : IpAddr} {endpoint : Endpoint}

/-- The hostname spells the address, except that a bare endpoint keeps the brackets. -/
theorem hostname_literal (literal : FromLiteral parseUrl addr endpoint)
    (stripped : ¬ KeepsBrackets endpoint addr) : parseIpAddr endpoint.hostname = some addr := by
  cases literal with
  | @bare raw host url endpoint parsed read named literal =>
    have found := host_parseUdpUri parsed read
    rw [named, Option.some.injEq] at found
    subst found
    unfold LiteralHost at literal
    cases family : addr.family with
    | v6 => exact absurd family stripped
    | v4 =>
      rw [family] at literal
      exact literal
  | @h3 raw host url endpoint parsed read named literal =>
    have found := host_parseH3Uri parsed read
    rw [named, Option.some.injEq] at found
    subst found
    unfold LiteralHost at literal
    cases family : addr.family with
    | v4 =>
      rw [family] at literal
      rwa [Endpoint.hostname, stripIpv6Brackets_text (parseIpAddr_chars literal)]
    | v6 =>
      rw [family] at literal
      obtain ⟨text, bracketed, parsed⟩ := literal
      rwa [Endpoint.hostname, bracketed, stripIpv6Brackets_bracketed (parseIpAddr_chars parsed)]

theorem hostname_brackets (literal : FromLiteral parseUrl addr endpoint)
    (kept : KeepsBrackets endpoint addr) : parseIpAddr endpoint.hostname = none := by
  cases literal with
  | h3 => exact absurd kept id
  | @bare raw host url endpoint parsed read named literal =>
    have found := host_parseUdpUri parsed read
    rw [named, Option.some.injEq] at found
    subst found
    have family : addr.family = .v6 := kept
    rw [LiteralHost, family] at literal
    obtain ⟨text, bracketed, _⟩ := literal
    rw [Endpoint.hostname, bracketed, parseIpAddr_bracketed]

end Hostname

/-! ## Runs of the resolver -/

def resolverStep (tuning : DnsTuning) (turn : Nat × DnsInput)
    (actor : DnsActor) : Option DnsActor :=
  (actor.iterate tuning turn.1 turn.2).map Prod.fst

theorem literalsApart_of_reaches {tuning : DnsTuning} {before after : DnsActor}
    (apart : before.LiteralsApart)
    (reached : Reaches (resolverStep tuning) (fun _ _ => True) before after) :
    after.LiteralsApart := by
  apply reached.invariant apart
  intro actor turn next kept _ taken
  obtain ⟨⟨next, emitted⟩, iterated, rfl⟩ := Option.map_eq_some_iff.mp taken
  exact kept.iterate iterated

theorem mem_collectHostnames {orch : Orchestrator} {id host : String} {entry : PeerEntry}
    (found : orch.peers.lookup id = some entry) (named : peerDnsHostname entry.config = some host) :
    host ∈ collectHostnames orch.peerConfigs.values := by
  rw [collectHostnames, Multiset.mem_toFinset, Multiset.mem_filterMap]
  refine ⟨entry.config, HashMap.mem_values.mpr ⟨id, ?_⟩, named⟩
  simp [Orchestrator.peerConfigs, found]

/-- Whenever the hostnames are registered and the snapshot is handled, a peer that still has
this endpoint has the one address, and no query for its host is queued from then on. -/
def ResolvesToItself (Trie : Type → Type) [PrefixTrie Trie] (endpoint : Endpoint)
    (addr : IpAddr) : Prop :=
  ∀ tuning actor, Reaches (resolverStep tuning) (fun _ _ => True) .new actor →
    ∀ (orch : Orchestrator) id entry, orch.peers.lookup id = some entry →
      entry.configEndpoint = some endpoint →
      ∀ now registered snapshot,
        actor.iterate tuning now (.setHostnames (collectHostnames orch.peerConfigs.values)) =
          some (registered, some snapshot) →
        -- other events may be handled before the snapshot is
        (∀ env (current : Orchestrator) kept, current.peers.lookup id = some kept →
          kept.configEndpoint = some endpoint →
          ∃ resolved, (current.handleDnsSnapshot env snapshot : Reaction Trie).orch.peers.lookup
            id = some resolved ∧
            resolved.resolvedIps = {addr}) ∧
        ∀ later, Reaches (resolverStep tuning) (fun _ _ => True) registered later →
          ∀ query ∈ later.queuedQueries, peerDnsHostname entry.config ≠ some query.hostname

variable {Trie : Type → Type} [PrefixTrie Trie]

theorem resolvesToItself_of_spelled {endpoint : Endpoint} {addr : IpAddr}
    (spelled : parseIpAddr endpoint.hostname = some addr) :
    ResolvesToItself Trie endpoint addr := by
  intro tuning actor reached orch id entry found configured now registered snapshot iterated
  have apart := literalsApart_of_reaches DnsActor.LiteralsApart.new reached
  have named := peerDnsHostname_of_endpoint configured
  refine ⟨fun env current kept present unchanged => ?_, fun later continues query queued => ?_⟩
  · rw [DnsActor.iterate_setHostnames, Option.some.injEq, Prod.mk.injEq,
      Option.some.injEq] at iterated
    obtain ⟨_, rfl⟩ := iterated
    have listed := apart.snapshot_handleSetHostnames tuning now
      (mem_collectHostnames found named) spelled
    refine ⟨_, by rw [Orchestrator.lookup_handleDnsSnapshot, present, Option.map_some], ?_⟩
    change (Orchestrator.resolve _ kept).resolvedIps = {addr}
    simp [Orchestrator.resolve, peerDnsHostname_of_endpoint unchanged, listed]
  · have kept := literalsApart_of_reaches (apart.iterate iterated) continues
    rw [named]
    intro equal
    rw [Option.some.injEq] at equal
    rw [equal, kept.queued query queued] at spelled
    cases spelled

theorem exists_transport (endpoint : Endpoint) :
    ∃ transport, transportEndpoint transport = some endpoint := by
  cases endpoint with
  | udp endpoint => exact ⟨.bare ⟨endpoint, none⟩, rfl⟩
  | h3 endpoint => exact ⟨.h3 ⟨some endpoint, "", none, none⟩, rfl⟩

theorem not_resolvesToItself_of_name {endpoint : Endpoint}
    (isName : parseIpAddr endpoint.hostname = none) (addr : IpAddr) :
    ¬ ResolvesToItself Trie endpoint addr := by
  intro itself
  -- a resolver that has just started, and one peer
  obtain ⟨transport, configured⟩ := exists_transport endpoint
  let entry : PeerEntry := .new ⟨"peer", transport, ⟨[]⟩⟩
  let orch : Orchestrator := ⟨Finmap.insert "peer" entry ∅, ⟨0, 0⟩, ⟨[]⟩, ⟨0⟩, false, false, false⟩
  have found : orch.peers.lookup "peer" = some entry := Finmap.lookup_insert _
  obtain ⟨resolved, after, alone⟩ :=
    (itself ⟨0, 0⟩ .new .refl orch "peer" entry found configured 0 _ _
    (DnsActor.iterate_setHostnames _ _ _ _)).1 ⟨0, fun _ => false, []⟩ orch entry found configured
  rw [Orchestrator.lookup_handleDnsSnapshot, found, Option.map_some, Option.some.injEq] at after
  subst after
  change (Orchestrator.resolve _ entry).resolvedIps = {addr} at alone
  have host : peerDnsHostname entry.config = some endpoint.hostname :=
    peerDnsHostname_of_endpoint configured
  have empty : DnsActor.new.knownIps endpoint.hostname = ∅ := by
    simp [DnsActor.knownIps, DnsActor.new]
  simp only [Orchestrator.resolve, host, Option.bind_some, DnsActor.snapshot_handleSetHostnames,
    if_pos (mem_collectHostnames found host), isName, empty, Option.getD_some] at alone
  exact absurd alone.symm (Finset.singleton_ne_empty addr)

/-- Literal endpoints resolve to themselves exactly if they are not bare IPv6 endpoints. -/
theorem literal_resolves_iff {parseUrl : UrlParser} {endpoint : Endpoint} {addr : IpAddr}
    (literal : FromLiteral parseUrl addr endpoint) :
    ResolvesToItself Trie endpoint addr ↔ ¬ KeepsBrackets endpoint addr := by
  constructor
  · intro itself kept
    exact not_resolvesToItself_of_name (hostname_brackets literal kept) addr itself
  · exact fun stripped => resolvesToItself_of_spelled (hostname_literal literal stripped)

def sampleUrls : UrlParser := fun raw =>
  if raw = "udp://192.0.2.1:6635" then
    .ok ⟨"udp", "", none, some "192.0.2.1", some 6635, "", none, none⟩
  else if raw = "udp://[2001:db8::1]:6635" then
    .ok ⟨"udp", "", none, some "[2001:db8::1]", some 6635, "", none, none⟩
  else .error "relative URL without a base"

theorem literal_resolves_v4 :
    FromLiteral sampleUrls (.v4 0xc0000201#32) (.udp ⟨"192.0.2.1", 6635⟩) ∧
      (ResolvesToItself AssocTrie (.udp ⟨"192.0.2.1", 6635⟩) (.v4 0xc0000201#32) ↔
        ¬ KeepsBrackets (.udp ⟨"192.0.2.1", 6635⟩) (.v4 0xc0000201#32)) := by
  have spelled : parseIpAddr "192.0.2.1" = some (.v4 0xc0000201#32) := by decide +kernel
  have literal : FromLiteral sampleUrls (.v4 0xc0000201#32) (.udp ⟨"192.0.2.1", 6635⟩) :=
    .bare (show parseUdpUri sampleUrls "udp://192.0.2.1:6635" =
      .ok ⟨"192.0.2.1", 6635⟩ by decide +kernel) rfl rfl spelled
  exact ⟨literal, literal_resolves_iff literal⟩

/-- The bracketed host gets no address and is queried instead. -/
theorem literal_queried :
    let host := "[2001:db8::1]"
    let addr : IpAddr := .v6 0x20010db8000000000000000000000001#128
    let registered := DnsActor.new.handleSetHostnames ⟨nanosPerSec, nanosPerSec⟩ 0 {host}
    FromLiteral sampleUrls addr (.udp ⟨host, 6635⟩) ∧
      registered.snapshot.lookup host = some ∅ ∧ ⟨host, .a⟩ ∈ registered.queuedQueries ∧
      ¬ ResolvesToItself AssocTrie (.udp ⟨host, 6635⟩) addr := by
  intro host addr registered
  have spelled : parseIpAddr "2001:db8::1" = some addr := by decide +kernel
  refine ⟨?_, by decide +kernel, by decide +kernel, ?_⟩
  · exact .bare (show parseUdpUri sampleUrls "udp://[2001:db8::1]:6635" =
      .ok ⟨host, 6635⟩ by decide +kernel) rfl rfl
      ⟨"2001:db8::1", by decide +kernel, spelled⟩
  · have isName : parseIpAddr (Endpoint.udp ⟨host, 6635⟩).hostname = none :=
      parseIpAddr_bracketed "2001:db8::1"
    exact not_resolvesToItself_of_name isName addr

end H3llo.Orch
