import H3llo.Dns.Queries
import H3llo.Orch.DialTarget
import H3llo.Orch.Transactions

/-! Derived state converges to the configuration.

Hostnames and tokens are sent with every change of the peers. Addresses, accepted
sources and system routes change only with a snapshot; a change of the peers causes
one, because the resolver answers every registration update.
-/

set_option autoImplicit false

namespace H3llo.Orch
open H3llo.Net H3llo.Config H3llo.Dns H3llo.Router H3llo.Runs

variable {Trie : Type → Type}

def snapshots (inbox : List Envelope) : List DnsSnapshot :=
  inbox.filterMap fun envelope =>
    match envelope.event with
    | .dns state => some state
    | _ => none

@[simp] theorem snapshots_append (first second : List Envelope) :
    snapshots (first ++ second) = snapshots first ++ snapshots second := List.filterMap_append

theorem snapshots_plain {envelope : Envelope} (plain : ¬ envelope.event.IsSnapshot)
    (rest : List Envelope) : snapshots (envelope :: rest) = snapshots rest := by
  cases same : envelope.event with
  | dns state => simp [same, Event.IsSnapshot] at plain
  | _ => simp [snapshots, same]

theorem snapshots_eq_nil {inbox : List Envelope}
    (plain : ∀ envelope ∈ inbox, ¬ envelope.event.IsSnapshot) : snapshots inbox = [] := by
  induction inbox with
  | nil => rfl
  | cons envelope rest ih =>
    rw [snapshots_plain (plain envelope List.mem_cons_self)]
    exact ih fun other member => plain other (List.mem_cons_of_mem envelope member)

namespace Orchestrator

def addresses (orch : Orchestrator) : HashMap String (Peer × Finset IpAddr) :=
  orch.peers.map fun _ entry => (entry.config, entry.resolvedIps)

theorem addresses_of_lookup {before after : Orchestrator}
    (update : String → PeerEntry → PeerEntry)
    (lookups : ∀ id, after.peers.lookup id = (before.peers.lookup id).map (update id))
    (keeps : ∀ id entry, (update id entry).config = entry.config ∧
      (update id entry).resolvedIps = entry.resolvedIps) :
    after.addresses = before.addresses := by
  apply Finmap.ext_lookup
  intro id
  simp only [addresses, HashMap.lookup_map, lookups, Option.map_map]
  congr 1
  funext entry
  simp [keeps id entry]

theorem peerConfigs_of_addresses {before after : Orchestrator}
    (same : after.addresses = before.addresses) : after.peerConfigs = before.peerConfigs := by
  have projected (orch : Orchestrator) : orch.peerConfigs = orch.addresses.map fun _ pair =>
      pair.1 := by
    apply Finmap.ext_lookup
    intro id
    simp [peerConfigs, addresses, Function.comp_def]
  rw [projected, projected, same]

/-- Every peer has the addresses that the snapshot lists for its hostname. -/
def ResolvedFrom (snapshot : DnsSnapshot) (orch : Orchestrator) : Prop :=
  ∀ id entry, orch.peers.lookup id = some entry →
    entry.resolvedIps = resolution snapshot (peerDnsHostname entry.config)

theorem mem_acceptedIps {orch : Orchestrator} {ip : IpAddr} :
    ip ∈ orch.acceptedIps ↔ ∃ id config ips options, orch.addresses.lookup id = some (config, ips) ∧
      config.transport = .bare options ∧ ip ∈ ips := by
  simp only [acceptedIps, Finset.mem_biUnion, Finmap.mem_keys, addresses, HashMap.lookup_map,
    Option.map_eq_some_iff, Prod.mk.injEq]
  constructor
  · rintro ⟨id, _, listed⟩
    cases found : orch.peers.lookup id with
    | none => simp [found] at listed
    | some entry =>
      cases transport : entry.config.transport with
      | h3 options => simp [found, transport] at listed
      | bare options =>
        exact ⟨id, entry.config, entry.resolvedIps, options, ⟨entry, found, rfl, rfl⟩, transport,
          by simpa [found, transport] using listed⟩
  · rintro ⟨id, _, _, options, ⟨entry, found, rfl, rfl⟩, transport, member⟩
    exact ⟨id, Finmap.mem_of_lookup_eq_some found, by simpa [found, transport] using member⟩

theorem acceptedIps_of_addresses {before after : Orchestrator}
    (same : after.addresses = before.addresses) : after.acceptedIps = before.acceptedIps := by
  ext ip
  rw [mem_acceptedIps, mem_acceptedIps, same]

theorem ResolvedFrom.of_addresses {before after : Orchestrator} {snapshot : DnsSnapshot}
    (resolved : before.ResolvedFrom snapshot) (same : after.addresses = before.addresses) :
    after.ResolvedFrom snapshot := by
  intro id entry found
  have stored : before.addresses.lookup id = some (entry.config, entry.resolvedIps) := by
    rw [← same]
    simp [addresses, found]
  simp only [addresses, HashMap.lookup_map, Option.map_eq_some_iff, Prod.mk.injEq] at stored
  obtain ⟨old, before, config, ips⟩ := stored
  rw [← ips, ← config]
  exact resolved id old before

theorem peerTokens_of_configs {before after : Orchestrator}
    (same : after.peerConfigs = before.peerConfigs) : after.peerTokens = before.peerTokens := by
  have projected (orch : Orchestrator) : orch.peerTokens = orch.peerConfigs.filterMap fun _ peer =>
      peer.token? := by
    apply Finmap.ext_lookup
    intro id
    simp [peerTokens, peerConfigs, Option.bind_map]
  rw [projected, projected, same]

/-- The routes are those of the current peers, in some order. -/
def RoutesTo (orch : Orchestrator) (routes : SyncRoutes) : Prop :=
  routes.tunAddrs = orch.localTun.addrs ∧
    (routes.allowed : Multiset IpNet) = orch.peerConfigs.values.bind fun peer => peer.tun.allowedIps

theorem routesTo_collectAllowedIps {orch : Orchestrator} {listed : List Peer}
    (lists : HashMap.Enumerates listed orch.peerConfigs) :
    orch.RoutesTo ⟨orch.localTun.addrs, collectAllowedIps listed⟩ := by
  refine ⟨rfl, ?_⟩
  rw [← lists]
  exact (Multiset.coe_bind listed fun peer => peer.tun.allowedIps).symm

theorem RoutesTo.congr {before after : Orchestrator} {routes : SyncRoutes}
    (routed : before.RoutesTo routes) (configs : after.peerConfigs = before.peerConfigs)
    (localTun : after.localTun = before.localTun) : after.RoutesTo routes := by
  rw [RoutesTo, localTun, configs]
  exact routed

structure SameSettings (before after : Orchestrator) : Prop where
  hasBareRx : after.hasBareRx = before.hasBareRx
  hasH3Listener : after.hasH3Listener = before.hasH3Listener
  hasRoute : after.hasRoute = before.hasRoute
  localTun : after.localTun = before.localTun

section Effects

variable [PrefixTrie Trie]

/-- A handler keeps configurations and addresses, or resolves the peers, or changes
configurations and tells the actors. -/
inductive DerivedEffect (orch : Orchestrator) (env : Env) : Event → Reaction Trie → Prop where
  | kept {event : Event} {reaction : Reaction Trie} (plain : ¬ event.IsSnapshot)
      (same : reaction.orch.addresses = orch.addresses)
      (settings : SameSettings orch reaction.orch) (hosts : reaction.mail.dns = [])
      (tokens : reaction.mail.h3Listener = []) (sources : reaction.mail.bareRx = [])
      (routes : reaction.mail.route = [] ∨ HashMap.Enumerates env.listed orch.peerConfigs ∧
        reaction.mail.route = (reaction.orch.updateRouting env.listed : Mail Trie).route) :
      DerivedEffect orch env event reaction
  | resolved (state : DnsSnapshot) : DerivedEffect orch env (.dns state)
      (orch.handleDnsSnapshot env state)
  | synced {event : Event} {next : Orchestrator} (plain : ¬ event.IsSnapshot)
      (settings : SameSettings orch next) :
      DerivedEffect orch env event ⟨next, next.syncPeersToActors, 0⟩

variable {orch : Orchestrator} {env : Env}

theorem DerivedEffect.idle {event : Event} (plain : ¬ event.IsSnapshot) :
    DerivedEffect orch env event (orch.idle : Reaction Trie) :=
  .kept plain rfl ⟨rfl, rfl, rfl, rfl⟩ rfl rfl rfl (.inl rfl)

theorem addresses_reconcile (env : Env) (orch : Orchestrator) :
    (orch.reconcile env : Reaction Trie).orch.addresses = orch.addresses :=
  addresses_of_lookup (fun _ entry => (entry.maintain env.isClosed env.now).1)
    (fun id => HashMap.lookup_map _ _ id) fun _ _ => ⟨rfl, rfl⟩

theorem reconcile_derived {event : Event} (plain : ¬ event.IsSnapshot)
    (lists : HashMap.Enumerates env.listed orch.peerConfigs) :
    DerivedEffect orch env event (orch.reconcile env : Reaction Trie) := by
  have same : (orch.reconcile env : Reaction Trie).orch.addresses = orch.addresses :=
    addresses_reconcile env orch
  unfold reconcile at same ⊢
  simp only at same ⊢
  split
  · exact .kept plain same ⟨rfl, rfl, rfl, rfl⟩ rfl rfl rfl (.inr ⟨lists, rfl⟩)
  · exact .kept plain same ⟨rfl, rfl, rfl, rfl⟩ rfl rfl rfl (.inl rfl)

theorem updateBound_derived (peerId : String) (endpoint : Option Endpoint) (dest : SocketAddr)
    (tx : Sender) {event : Event} (plain : ¬ event.IsSnapshot)
    (lists : HashMap.Enumerates env.listed orch.peerConfigs) :
    DerivedEffect orch env event (orch.updateBound env peerId endpoint dest tx :
      Reaction Trie) := by
  have same : (orch.updateBound env peerId endpoint dest tx : Reaction Trie).orch.addresses =
      orch.addresses :=
    addresses_of_lookup _ (lookup_updateBound env peerId endpoint dest tx orch) fun id entry => by
      split <;> exact ⟨rfl, rfl⟩
  unfold updateBound at same ⊢
  cases found : orch.peers.lookup peerId with
  | none => exact .idle plain
  | some entry =>
    simp only [found] at same ⊢
    split
    · exact .kept plain same ⟨rfl, rfl, rfl, rfl⟩ rfl rfl rfl (.inr ⟨lists, rfl⟩)
    · exact .kept plain same ⟨rfl, rfl, rfl, rfl⟩ rfl rfl rfl (.inl rfl)

theorem failDial_frame (backoff : Backoff) (now : Nat) (ip : IpAddr) (entry : PeerEntry) :
    (failDial backoff now ip entry).config = entry.config ∧
      (failDial backoff now ip entry).resolvedIps = entry.resolvedIps := by
  unfold failDial
  split <;> exact ⟨rfl, rfl⟩

theorem handleDialFailed_derived (peerId : String) (ip : IpAddr) {event : Event}
    (plain : ¬ event.IsSnapshot) :
    DerivedEffect orch env event (orch.handleDialFailed env peerId ip : Reaction Trie) := by
  have same : (orch.handleDialFailed env peerId ip : Reaction Trie).orch.addresses =
      orch.addresses :=
    addresses_of_lookup _ (lookup_handleDialFailed env peerId ip orch) fun id entry => by
      split
      · exact failDial_frame orch.backoff env.now ip entry
      · exact ⟨rfl, rfl⟩
  unfold handleDialFailed at same ⊢
  cases found : orch.peers.lookup peerId with
  | none => exact .idle plain
  | some entry =>
    simp only [found] at same ⊢
    cases dialed : entry.dials.lookup ip with
    | none => exact .idle plain
    | some state =>
      simp only [dialed] at same ⊢
      exact .kept plain same ⟨rfl, rfl, rfl, rfl⟩ rfl rfl rfl (.inl rfl)

theorem handleEvent_derived {event : Event} {reaction : Reaction Trie}
    (lists : HashMap.Enumerates env.listed (orch.listedBy event))
    (reacts : orch.handleEvent env event = some reaction) :
    DerivedEffect orch env event reaction := by
  cases reacts_of_handleEvent reacts with
  | exited => exact .idle id
  | reconciled => exact reconcile_derived id lists
  | resolved state => exact .resolved state
  | rejected peers => exact .idle id
  | posted peers accepted updated =>
    subst updated
    exact .synced id ⟨rfl, rfl, rfl, rfl⟩
  | deleted ids =>
    unfold handleDeleteConfig
    simp only
    split
    next => exact .synced id ⟨rfl, rfl, rfl, rfl⟩
    next same =>
      rw [eraseAll_of_card same]
      exact .idle id
  | connected peerId remoteAddr tx endpoint =>
    exact updateBound_derived peerId endpoint remoteAddr tx id lists
  | failed peerId ip => exact handleDialFailed_derived peerId ip id
  | ignored => exact .idle id

variable (Trie) in
theorem resolvedFrom_handleDnsSnapshot (env : Env) (state : DnsSnapshot) (orch : Orchestrator) :
    (orch.handleDnsSnapshot env state : Reaction Trie).orch.ResolvedFrom state := by
  intro id entry found
  rw [lookup_handleDnsSnapshot] at found
  obtain ⟨old, _, rfl⟩ := Option.map_eq_some_iff.mp found
  exact resolvedIps_resolve state old

end Effects
end Orchestrator

/-! ## The invariant -/

namespace System

/-- No registration update and no snapshot is under way. -/
def Settled (sys : System Trie) : Prop := sys.mail.dns = [] ∧ snapshots sys.inbox = []

/-- What is known of the configuration, counting messages under way as received. -/
structure Derived (sys : System Trie) : Prop where
  hosts : newest sys.mail.dns sys.dns.hostnames.keys = collectHostnames sys.orch.peerConfigs.values
  snapshot : newest (snapshots sys.inbox) sys.lastSnapshot = sys.dns.snapshot
  tokens : sys.orch.hasH3Listener = true → newest sys.mail.h3Listener sys.peerTokens =
    sys.orch.peerTokens
  resolved : sys.Settled → sys.orch.ResolvedFrom sys.lastSnapshot
  sources : sys.orch.hasBareRx = true → sys.Settled →
    newest sys.mail.bareRx sys.acceptedSources = sys.orch.acceptedIps
  routes : sys.orch.hasRoute = true → sys.Settled →
    ∃ routes, newest (sys.mail.route.map some) sys.syncedRoutes = some routes ∧
      sys.orch.RoutesTo routes

theorem Derived.frame {sys after : System Trie} (derived : sys.Derived)
    (orch : after.orch = sys.orch) (mail : after.mail = sys.mail)
    (inbox : snapshots after.inbox = snapshots sys.inbox)
    (keys : after.dns.hostnames.keys = sys.dns.hostnames.keys)
    (snapshot : after.dns.snapshot = sys.dns.snapshot)
    (acceptedSources : after.acceptedSources = sys.acceptedSources)
    (peerTokens : after.peerTokens = sys.peerTokens)
    (syncedRoutes : after.syncedRoutes = sys.syncedRoutes)
    (lastSnapshot : after.lastSnapshot = sys.lastSnapshot) : after.Derived where
  hosts := by
    rw [mail, keys, orch]
    exact derived.hosts
  snapshot := by
    rw [inbox, lastSnapshot, snapshot]
    exact derived.snapshot
  tokens := by
    rw [orch, mail, peerTokens]
    exact derived.tokens
  resolved := by
    rw [Settled, mail, inbox, orch, lastSnapshot]
    exact derived.resolved
  sources := by
    rw [Settled, orch, mail, inbox, acceptedSources]
    exact derived.sources
  routes := by
    rw [Settled, orch, mail, inbox, syncedRoutes]
    exact derived.routes

variable [PrefixTrie Trie]

variable (Trie) in
theorem routes_updateRouting {orch : Orchestrator} {listed : List Peer}
    (lists : HashMap.Enumerates listed orch.peerConfigs) (hasRoute : orch.hasRoute = true)
    (queue : List SyncRoutes) (taken : Option SyncRoutes) :
    ∃ routes, newest ((queue ++ (orch.updateRouting listed : Mail Trie).route).map some) taken =
      some routes ∧
      orch.RoutesTo routes := by
  refine ⟨⟨orch.localTun.addrs, collectAllowedIps listed⟩, ?_,
    Orchestrator.routesTo_collectAllowedIps lists⟩
  simp [Orchestrator.updateRouting, hasRoute]

theorem Derived.kept {sys : System Trie} {env : Env} {reaction : Reaction Trie}
    (derived : sys.Derived) (same : reaction.orch.addresses = sys.orch.addresses)
    (settings : Orchestrator.SameSettings sys.orch reaction.orch) (hosts : reaction.mail.dns = [])
    (tokens : reaction.mail.h3Listener = []) (sources : reaction.mail.bareRx = [])
    (routes : reaction.mail.route = [] ∨ HashMap.Enumerates env.listed sys.orch.peerConfigs ∧
      reaction.mail.route = (reaction.orch.updateRouting env.listed : Mail Trie).route) :
    (sys.absorb reaction).Derived := by
  have configs := Orchestrator.peerConfigs_of_addresses same
  have settled : (sys.absorb reaction).Settled → sys.Settled := by
    simp [Settled, absorb, Mail.append, hosts]
  refine ⟨?_, derived.snapshot, fun listens => ?_, fun quiet => ?_, fun filters quiet => ?_,
    fun syncs quiet => ?_⟩
  · simp only [absorb, Mail.append, hosts, List.append_nil, configs]
    exact derived.hosts
  · simp only [absorb, Mail.append, tokens, List.append_nil,
      Orchestrator.peerTokens_of_configs configs]
    exact derived.tokens (settings.hasH3Listener ▸ listens)
  · exact (derived.resolved (settled quiet)).of_addresses same
  · simp only [absorb, Mail.append, sources, List.append_nil,
      Orchestrator.acceptedIps_of_addresses same]
    exact derived.sources (settings.hasBareRx ▸ filters) (settled quiet)
  · rcases routes with silent | ⟨lists, rebuilt⟩
    · obtain ⟨known, latest, routed⟩ := derived.routes (settings.hasRoute ▸ syncs) (settled quiet)
      exact ⟨known, by simpa [absorb, Mail.append, silent] using latest,
        routed.congr configs settings.localTun⟩
    · simp only [absorb, Mail.append, rebuilt]
      exact routes_updateRouting Trie (configs.symm ▸ lists) syncs _ _

omit [PrefixTrie Trie] in
theorem Derived.synced {sys : System Trie} (derived : sys.Derived) (next : Orchestrator) :
    (sys.absorb ⟨next, next.syncPeersToActors, 0⟩).Derived := by
  have pending : ¬ (sys.absorb ⟨next, next.syncPeersToActors, 0⟩ : System Trie).Settled := by
    simp [Settled, absorb, Mail.append, Orchestrator.syncPeersToActors]
  refine ⟨?_, derived.snapshot, fun listens => ?_, fun quiet => absurd quiet pending,
    fun _ quiet => absurd quiet pending, fun _ quiet => absurd quiet pending⟩
  · simp [absorb, Mail.append, Orchestrator.syncPeersToActors]
  · have listens : next.hasH3Listener = true := listens
    simp [absorb, Mail.append, Orchestrator.syncPeersToActors, listens]

theorem Derived.resolve {sys : System Trie} {env : Env} {state : DnsSnapshot}
    {origin : Option DialTask} {rest : List Envelope} {now : Nat} (derived : sys.Derived)
    (queued : sys.inbox = ⟨.dns state, origin⟩ :: rest)
    (lists : HashMap.Enumerates env.listed sys.orch.peerConfigs) :
    (({ sys with inbox := rest, clock := now }.absorb
      (sys.orch.handleDnsSnapshot env state)).remember
      (.dns state)).Derived := by
  have configs : (sys.orch.handleDnsSnapshot env state : Reaction Trie).orch.peerConfigs =
      sys.orch.peerConfigs :=
    sys.orch.peerConfigs_maintainAll env (Orchestrator.resolve state) fun _ => rfl
  refine ⟨?_, ?_, fun listens => ?_, fun _ => ?_, fun filters _ => ?_, fun syncs _ => ?_⟩
  · have hosts := derived.hosts
    rw [← configs] at hosts
    simpa [remember, absorb, Mail.append, Orchestrator.handleDnsSnapshot,
      Orchestrator.updateAcceptedSources, Orchestrator.updateRouting, Mail.none] using hosts
  · have snapshot := derived.snapshot
    rw [queued, show snapshots (⟨.dns state, origin⟩ :: rest) = state :: snapshots rest from rfl,
      newest_cons] at snapshot
    exact snapshot
  · have tokens := derived.tokens listens
    rw [← Orchestrator.peerTokens_of_configs configs] at tokens
    simpa [remember, absorb, Mail.append, Orchestrator.handleDnsSnapshot,
      Orchestrator.updateAcceptedSources, Orchestrator.updateRouting, Mail.none] using tokens
  · exact Orchestrator.resolvedFrom_handleDnsSnapshot Trie env state sys.orch
  · have filters : (sys.orch.maintainAll env (Orchestrator.resolve state)).1.hasBareRx = true :=
      filters
    simp [remember, absorb, Mail.append, Orchestrator.handleDnsSnapshot,
      Orchestrator.updateAcceptedSources, Orchestrator.updateRouting, Mail.none, filters]
  · exact routes_updateRouting Trie (configs.symm ▸ lists) syncs _ _

theorem Derived.handled {sys : System Trie} {now : Nat} {listed : List Peer} {envelope : Envelope}
    {rest : List Envelope} {reaction : Reaction Trie} (derived : sys.Derived)
    (queued : sys.inbox = envelope :: rest)
    (lists : HashMap.Enumerates listed (sys.orch.listedBy envelope.event))
    (reacts : sys.orch.handleEvent ⟨now, sys.isClosed, listed⟩ envelope.event = some reaction) :
    (({ sys with inbox := rest, clock := now }.absorb reaction).remember
      envelope.event).Derived := by
  obtain ⟨event, origin⟩ := envelope
  have popped (plain : ¬ event.IsSnapshot) :
      ({ sys with inbox := rest, clock := now } : System Trie).Derived :=
    derived.frame rfl rfl (by rw [queued, snapshots_plain plain]) rfl rfl rfl rfl rfl rfl
  have forgotten (plain : ¬ event.IsSnapshot) (next : System Trie) : next.remember event =
      next := by
    cases event <;> first | rfl | exact absurd trivial plain
  cases Orchestrator.handleEvent_derived lists reacts with
  | kept plain same settings hosts tokens sources routes =>
    rw [forgotten plain]
    exact (popped plain).kept same settings hosts tokens sources routes
  | resolved state => exact derived.resolve queued lists
  | synced plain settings =>
    rw [forgotten plain]
    exact (popped plain).synced _

omit [PrefixTrie Trie] in
/-- The resolver reports what it knows; with the report under way nothing else is due. -/
theorem Derived.reported {sys after : System Trie} (derived : sys.Derived)
    (orch : after.orch = sys.orch)
    (hosts : newest after.mail.dns after.dns.hostnames.keys =
      newest sys.mail.dns sys.dns.hostnames.keys)
    (inbox : snapshots after.inbox = snapshots sys.inbox ++ [after.dns.snapshot])
    (h3Listener : after.mail.h3Listener = sys.mail.h3Listener)
    (peerTokens : after.peerTokens = sys.peerTokens) : after.Derived := by
  have pending : ¬ after.Settled := by simp [Settled, inbox]
  refine ⟨?_, by simp [inbox], ?_, fun quiet => absurd quiet pending,
    fun _ quiet => absurd quiet pending,
    fun _ quiet => absurd quiet pending⟩
  · rw [hosts, orch]
    exact derived.hosts
  · rw [orch, h3Listener, peerTokens]
    exact derived.tokens

theorem Derived.step {tuning : DnsTuning} {action : Action} {sys after : System Trie}
    (derived : sys.Derived) (taken : sys.step tuning action = some after) : after.Derived := by
  have delivered (envelope : Envelope) (plain : ¬ envelope.event.IsSnapshot) :
      snapshots (sys.inbox ++ [envelope]) = snapshots sys.inbox := by
    rw [snapshots_append, snapshots_plain plain]
    exact List.append_nil _
  cases moves_of_step taken with
  | handled queued running later lists reacts => exact derived.handled queued lists reacts
  -- The message that ends the run is not a snapshot.
  | @stopped now listed envelope rest queued leaves =>
    have plain := Event.not_isSnapshot_of_leaves leaves
    exact derived.frame rfl rfl (by rw [queued, snapshots_plain plain]) rfl rfl rfl rfl rfl rfl
  | @reconciled now listed running later lists =>
    have waited : ({ sys with clock := now } : System Trie).Derived :=
      derived.frame rfl rfl rfl rfl rfl rfl rfl rfl rfl
    have effect : Orchestrator.DerivedEffect sys.orch ⟨now, sys.isClosed, listed⟩ .other
        (sys.orch.reconcile ⟨now, sys.isClosed, listed⟩ : Reaction Trie) :=
      Orchestrator.reconcile_derived id lists
    generalize (sys.orch.reconcile ⟨now, sys.isClosed, listed⟩ : Reaction Trie) = reaction at effect
    cases effect with
    | kept plain same settings hosts tokens sources routes =>
      exact waited.kept same settings hosts tokens sources routes
    | synced plain settings => exact waited.synced _
  -- The resolver now has these hosts, and its snapshot of them is under way.
  | @registered now hosts rest dns emitted queued later iterated =>
    rw [DnsActor.iterate_setHostnames, Option.some.injEq, Prod.mk.injEq] at iterated
    obtain ⟨rfl, rfl⟩ := iterated
    have keys : (sys.dns.handleSetHostnames tuning now hosts).hostnames.keys = hosts := by
      ext host
      rw [Finmap.mem_keys, DnsActor.mem_hostnames_handleSetHostnames]
    exact derived.reported rfl (by simp [queued, keys]) (snapshots_append _ _) rfl rfl
  -- Other branches keep the hosts; they send a snapshot or leave the addresses as they are.
  | @resolved now input dns emitted other later iterated =>
    have keys : dns.hostnames.keys = sys.dns.hostnames.keys := by
      ext host
      rw [Finmap.mem_keys, Finmap.mem_keys, DnsActor.mem_hostnames_iterate other iterated]
    rcases DnsActor.iterate_snapshot iterated with rfl | ⟨rfl, same⟩
    · exact derived.reported rfl (by simp [keys]) (snapshots_append _ _) rfl rfl
    · exact derived.frame rfl rfl (by simp) keys same rfl rfl rfl rfl
  | routed queued =>
    exact ⟨derived.hosts, derived.snapshot, derived.tokens, derived.resolved, derived.sources,
      derived.routes⟩
  -- The actor now has what was the newest of its mail.
  | filtered queued =>
    refine ⟨derived.hosts, derived.snapshot, derived.tokens, derived.resolved,
      fun filters quiet => ?_, derived.routes⟩
    have latest := derived.sources filters quiet
    rwa [queued, newest_cons] at latest
  | authorised queued =>
    refine ⟨derived.hosts, derived.snapshot, fun listens => ?_, derived.resolved, derived.sources,
      derived.routes⟩
    have latest := derived.tokens listens
    rwa [queued, newest_cons] at latest
  | synced queued =>
    refine ⟨derived.hosts, derived.snapshot, derived.tokens, derived.resolved, derived.sources,
      fun syncs quiet => ?_⟩
    have latest := derived.routes syncs quiet
    rwa [queued, List.map_cons, newest_cons] at latest
  | connected dialed runs fresh =>
    exact derived.frame rfl rfl (delivered _ id) rfl rfl rfl rfl rfl rfl
  | failed runs => exact derived.frame rfl rfl (delivered _ id) rfl rfl rfl rfl rfl rfl
  | aborted runs => exact derived.frame rfl rfl rfl rfl rfl rfl rfl rfl rfl
  | arrived plain fresh => exact derived.frame rfl rfl (delivered _ plain) rfl rfl rfl rfl rfl rfl
  | closed => exact derived.frame rfl rfl rfl rfl rfl rfl rfl rfl rfl

theorem derived_new (orch : Orchestrator) (peers : List Peer) :
    (new orch peers : System Trie).Derived := by
  have pending : ¬ (new orch peers : System Trie).Settled := by
    simp [Settled, new, Orchestrator.syncPeersToActors]
  refine ⟨by simp [new, Orchestrator.syncPeersToActors], rfl, fun listens => ?_,
    fun quiet => absurd quiet pending,
    fun _ quiet => absurd quiet pending, fun _ quiet => absurd quiet pending⟩
  have listens : orch.hasH3Listener = true := listens
  simp [new, Orchestrator.syncPeersToActors, listens]

theorem resolution_snapshot (dns : DnsActor) (host : Option String) :
    Orchestrator.resolution dns.snapshot host = (host.map dns.knownIps).getD ∅ := by
  cases host with
  | none => rfl
  | some name => simp [Orchestrator.resolution, DnsActor.lookup_snapshot, DnsActor.knownIps]

/-- With no message of these kinds under way, every party has what the current peers
call for: the resolver their hostnames, the peers the resolver's addresses, the source filter
the addresses of the BareUDP peers, the listener the tokens and the system their routes. -/
theorem derived_state_converges (tuning : DnsTuning) (orch : Orchestrator) (peers : List Peer)
    {sys : System Trie} (reached : Reaches (step tuning) (fun _ _ => True) (new orch peers) sys)
    (hosts : sys.mail.dns = []) (reports : ∀ envelope ∈ sys.inbox, ¬ envelope.event.IsSnapshot)
    (sources : sys.mail.bareRx = []) (tokens : sys.mail.h3Listener = [])
    (routes : sys.mail.route = []) :
    sys.dns.hostnames.keys = collectHostnames sys.orch.peerConfigs.values ∧
    (∀ id entry, sys.orch.peers.lookup id = some entry →
      entry.resolvedIps = ((peerDnsHostname entry.config).map sys.dns.knownIps).getD ∅) ∧
    (sys.orch.hasBareRx = true → ∀ ip, ip ∈ sys.acceptedSources ↔
      ∃ id entry options, sys.orch.peers.lookup id = some entry ∧
        entry.config.transport = .bare options ∧
        ip ∈ entry.resolvedIps) ∧
    (sys.orch.hasH3Listener = true → ∀ id token, sys.peerTokens.lookup id = some token ↔
      ∃ peer ∈ sys.orch.peerConfigs.values, peer.id = id ∧ peer.token? = some token) ∧
    (sys.orch.hasRoute = true → ∃ synced, sys.syncedRoutes = some synced ∧
      (synced.allowed : Multiset IpNet) = sys.orch.peerConfigs.values.bind fun peer =>
        peer.tun.allowedIps) := by
  have derived : sys.Derived := reached.invariant (derived_new orch peers)
    fun _ _ _ before _ taken => before.step taken
  have keyed := peersKeyed_of_reaches reached
  have none : snapshots sys.inbox = [] := snapshots_eq_nil reports
  have settled : sys.Settled := ⟨hosts, none⟩
  -- With no snapshot under way the last one handled is the one of the resolver.
  have known := derived.snapshot
  rw [none, newest_nil] at known
  refine ⟨?_, fun id entry found => ?_, fun filters ip => ?_, fun listens id token => ?_,
    fun syncs => ?_⟩
  · simpa [hosts] using derived.hosts
  · rw [derived.resolved settled id entry found, known, resolution_snapshot]
  · have latest := derived.sources filters settled
    rw [sources, newest_nil] at latest
    rw [latest, Orchestrator.mem_acceptedIps]
    simp only [Orchestrator.addresses, HashMap.lookup_map, Option.map_eq_some_iff, Prod.mk.injEq]
    constructor
    · rintro ⟨id, _, _, options, ⟨entry, found, rfl, rfl⟩, bare, member⟩
      exact ⟨id, entry, options, found, bare, member⟩
    · rintro ⟨id, entry, options, found, bare, member⟩
      exact ⟨id, entry.config, entry.resolvedIps, options, ⟨entry, found, rfl, rfl⟩, bare, member⟩
  · have latest := derived.tokens listens
    rw [tokens, newest_nil] at latest
    have stored : sys.orch.peerTokens.lookup id =
        (sys.orch.peerConfigs.lookup id).bind Peer.token? := by
      simp [Orchestrator.peerTokens, Orchestrator.peerConfigs, Option.bind_map]
    rw [latest, stored, Option.bind_eq_some_iff]
    constructor
    · rintro ⟨peer, found, token⟩
      exact ⟨peer, HashMap.mem_values.mpr ⟨id, found⟩, keyed id peer found, token⟩
    · rintro ⟨peer, listed, rfl, token⟩
      obtain ⟨id, found⟩ := HashMap.mem_values.mp listed
      obtain rfl := keyed id peer found
      exact ⟨peer, found, token⟩
  · obtain ⟨synced, latest, _, allowed⟩ := derived.routes syncs settled
    rw [routes, List.map_nil, newest_nil] at latest
    exact ⟨synced, latest, allowed⟩

def admitRelay : List Action :=
  [.dnsReceive 1, .handle 2 [fixedRelay], .bareReceive, .h3Receive, .routeReceive]

theorem derived_state_converges_relay : ∃ sys : System AssocTrie,
    run (step sampleTuning) admitRelay (new sampleOrch [fixedRelay]) = some sys ∧
    fixedRelayIp ∈ sys.acceptedSources ∧
      (∃ id entry options, sys.orch.peers.lookup id = some entry ∧
        entry.config.transport = .bare options ∧
        fixedRelayIp ∈ entry.resolvedIps) ∧
      sys.dns.hostnames.keys = collectHostnames sys.orch.peerConfigs.values := by
  have executes : (run (step sampleTuning) admitRelay
      (new sampleOrch [fixedRelay] : System AssocTrie)).any (fun sys =>
      sys.mail.dns = [] ∧ sys.inbox.isEmpty ∧ sys.mail.bareRx = [] ∧ sys.mail.h3Listener.isEmpty ∧
        sys.mail.route.isEmpty ∧ sys.orch.hasBareRx = true ∧ fixedRelayIp ∈ sys.acceptedSources) =
          true := by
    decide +kernel
  obtain ⟨sys, executed, facts⟩ := (Option.any_eq_true ..).mp executes
  obtain ⟨hosts, inbox, sources, tokens, routes, filters, accepted⟩ := of_decide_eq_true facts
  have reached : Reaches (step sampleTuning) (fun _ _ => True) (new sampleOrch [fixedRelay]) sys :=
    reaches_of_run (fun _ _ _ => trivial) executed
  obtain ⟨registered, _, filtered, _⟩ := derived_state_converges sampleTuning sampleOrch
    [fixedRelay] reached hosts
    (by simp [List.isEmpty_iff.mp inbox]) sources (List.isEmpty_iff.mp tokens)
      (List.isEmpty_iff.mp routes)
  exact ⟨sys, executed, accepted, (filtered filters fixedRelayIp).mp accepted, registered⟩

end System
end H3llo.Orch
