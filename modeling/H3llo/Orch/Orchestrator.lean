import H3llo.Dns.Actor
import H3llo.Orch.Peer
import H3llo.Router.Table
import Mathlib.Data.Multiset.Bind
import Mathlib.Data.Finset.Union

/-! Event handlers of the orchestrator.

A handler returns the next state, the messages for the other actors and the dials
it starts. The order in which a hash map lists peers is part of the environment;
it reaches a message only through `listed`.
-/

set_option autoImplicit false

namespace H3llo.Orch
open H3llo.Net H3llo.Config H3llo.Dns H3llo.Router

inductive SupervisionPolicy where | critical | restartable | detached
  deriving DecidableEq, Repr

inductive Event where
  | stop
  | actorExited (policy : SupervisionPolicy)
  | dns (state : DnsSnapshot)
  | postConfig (peers : List Peer)
  | deleteConfig (peerIds : List String)
  | connected (peerId : String) (remoteAddr : SocketAddr) (tx : Sender) (endpoint : Option Endpoint)
  | dialFailed (peerId : String) (ip : IpAddr)
  /-- Queries, metrics and unexpected messages; none changes the state modelled here. -/
  | other

structure SyncRoutes where
  tunAddrs : List IpNet
  allowed : List IpNet

variable {Trie : Type → Type}

structure Mail (Trie : Type → Type) where
  router : List (RoutingTable Trie)
  dns : List (Finset String)
  bareRx : List (Finset IpAddr)
  h3Listener : List (HashMap String String)
  route : List SyncRoutes

namespace Mail

def none : Mail Trie := ⟨[], [], [], [], []⟩

def append (first second : Mail Trie) : Mail Trie where
  router := first.router ++ second.router
  dns := first.dns ++ second.dns
  bareRx := first.bareRx ++ second.bareRx
  h3Listener := first.h3Listener ++ second.h3Listener
  route := first.route ++ second.route

end Mail

/-- What a handler reads besides its event: the clock, the closed channels and the list in
which the peers' map is traversed. -/
structure Env where
  now : Nat
  isClosed : Sender → Bool
  listed : List Peer

structure Orchestrator (Reports : Type := Unit) where
  peers : HashMap String (PeerEntry Reports)
  backoff : Backoff
  localTun : LocalTun
  inputTx : Sender
  hasBareRx : Bool
  hasH3Listener : Bool
  hasRoute : Bool

structure Reaction (Trie : Type → Type) (Reports : Type := Unit) where
  orch : Orchestrator Reports
  mail : Mail Trie
  dials : Multiset Dial

/-! ## Derived state -/

def collectHostnames (peers : Multiset Peer) : Finset String :=
  (peers.filterMap peerDnsHostname).toFinset

def collectAllowedIps (peers : List Peer) : List IpNet :=
  peers.flatMap fun peer => peer.tun.allowedIps

namespace Orchestrator

variable {Reports : Type}

def peerConfigs (orch : Orchestrator Reports) : HashMap String Peer :=
  orch.peers.map fun _ entry => entry.config

def peerTxs (orch : Orchestrator Reports) : HashMap String Sender :=
  orch.peers.filterMap fun _ entry => entry.preferredTx

def acceptedIps (orch : Orchestrator Reports) : Finset IpAddr :=
  orch.peers.keys.biUnion fun id =>
    match orch.peers.lookup id with
    | some entry =>
        match entry.config.transport with
        | .bare _ => entry.resolvedIps
        | .h3 _ => ∅
    | none => ∅

def peerTokens (orch : Orchestrator Reports) : HashMap String String :=
  orch.peers.filterMap fun _ entry => entry.config.token?

/-! ## Messages to other actors -/

def updateAcceptedSources (orch : Orchestrator Reports) : Mail Trie :=
  { Mail.none with bareRx := if orch.hasBareRx then [orch.acceptedIps] else [] }

def syncPeersToActors (orch : Orchestrator Reports) : Mail Trie :=
  { Mail.none with
    h3Listener := if orch.hasH3Listener then [orch.peerTokens] else []
    dns := [collectHostnames orch.peerConfigs.values] }

section Routing

variable [PrefixTrie Trie]

def makeRouting (orch : Orchestrator Reports) (listed : List Peer) :
    Except RoutingError (RoutingTable Trie) :=
  RoutingTable.make listed orch.peerTxs orch.localTun orch.inputTx

/-- Sends a new table unless it cannot be built; routes are synchronised either way. -/
def updateRouting (orch : Orchestrator Reports) (listed : List Peer) : Mail Trie :=
  { (Mail.none : Mail Trie) with
    router :=
      match orch.makeRouting listed with
      | .ok routing => [routing]
      | .error _ => []
    route := if orch.hasRoute then [⟨orch.localTun.addrs, collectAllowedIps listed⟩] else [] }

end Routing

/-! ## Handlers -/

def idle (orch : Orchestrator Reports) : Reaction Trie Reports := ⟨orch, .none, 0⟩

/-- Maintains every peer, after `update` changed it. -/
def maintainAll (env : Env) (update : PeerEntry Reports → PeerEntry Reports)
    (orch : Orchestrator Reports) : Orchestrator Reports × Multiset Dial :=
  ({ orch with
    peers := orch.peers.map fun _ entry => ((update entry).maintain env.isClosed env.now).1 },
    orch.peers.values.bind fun entry => ((update entry).maintain env.isClosed env.now).2)

section Handlers

variable [PrefixTrie Trie]

def reconcile (env : Env) (orch : Orchestrator Reports) : Reaction Trie Reports :=
  let routingChanged := orch.peers.any fun _ entry => (entry.prune env.isClosed).2
  let (next, dials) := orch.maintainAll env id
  ⟨next, if routingChanged then next.updateRouting env.listed else .none, dials⟩

def resolve (state : DnsSnapshot) (entry : PeerEntry Reports) : PeerEntry Reports :=
  { entry with
    resolvedIps := ((peerDnsHostname entry.config).bind fun host => state.lookup host).getD ∅ }

def handleDnsSnapshot (env : Env) (state : DnsSnapshot) (orch : Orchestrator Reports) :
    Reaction Trie Reports :=
  let (next, dials) := orch.maintainAll env (resolve state)
  -- Unlike a reconcile, a snapshot updates the routing unconditionally.
  ⟨next, next.updateAcceptedSources.append (next.updateRouting env.listed), dials⟩

/-- The entry with a new bound at the end; a dialed one ends its dial state. -/
def pushBound [Inhabited Reports] (endpoint : Option Endpoint) (dest : SocketAddr) (tx : Sender)
    (entry : PeerEntry Reports) : PeerEntry Reports :=
  { entry with
    bounds := entry.bounds ++ [⟨endpoint, dest, tx, default⟩]
    dials := if endpoint.isSome then entry.dials.erase dest.ip else entry.dials }

def updateBound [Inhabited Reports] (env : Env) (peerId : String) (endpoint : Option Endpoint)
    (dest : SocketAddr) (tx : Sender) (orch : Orchestrator Reports) : Reaction Trie Reports :=
  match orch.peers.lookup peerId with
  | none => orch.idle
  | some entry =>
      let (pruned, firstChanged) := (pushBound endpoint dest tx entry).prune env.isClosed
      let next := { orch with peers := orch.peers.insert peerId pruned }
      -- The first bound of a peer changes its routes without any being pruned.
      ⟨next, if entry.bounds.isEmpty || firstChanged then next.updateRouting env.listed else .none,
        0⟩

def handleDialFailed (env : Env) (peerId : String) (ip : IpAddr) (orch : Orchestrator Reports) :
    Reaction Trie Reports :=
  match orch.peers.lookup peerId with
  | none => orch.idle
  | some entry =>
      match entry.dials.lookup ip with
      | none => orch.idle
      | some state =>
          let dials := entry.dials.insert ip (state.recordFailure orch.backoff env.now)
          { orch with peers := orch.peers.insert peerId { entry with dials } }.idle

def mergedPeers (newPeers : List Peer) (orch : Orchestrator Reports) : HashMap String Peer :=
  newPeers.foldl (fun merged peer => merged.insert peer.id peer) orch.peerConfigs

/-- A known peer keeps its connections and dials; only its configuration changes. -/
def upsertPeer (peers : HashMap String (PeerEntry Reports)) (peer : Peer) :
    HashMap String (PeerEntry Reports) :=
  match peers.lookup peer.id with
  | some existing => peers.insert peer.id { existing with config := peer }
  | none => peers.insert peer.id (.new peer)

def handlePostConfig (env : Env) (newPeers : List Peer) (orch : Orchestrator Reports) :
    Except String (Reaction Trie Reports) :=
  match validatePeers env.listed with
  | .error errors => .error (validationText errors)
  | .ok () =>
      -- The routing is left to the snapshot that the registration of hostnames causes.
      let next := { orch with peers := newPeers.foldl upsertPeer orch.peers }
      .ok ⟨next, next.syncPeersToActors, 0⟩

def handleDeleteConfig (peerIds : List String) (orch : Orchestrator Reports) :
    Reaction Trie Reports :=
  let next := { orch with peers := peerIds.foldl (fun peers id => peers.erase id) orch.peers }
  ⟨next, if next.peers.keys.card < orch.peers.keys.card then next.syncPeersToActors else .none, 0⟩

/-- A critical exit ends the run; one of a peer actor triggers a reconcile. -/
def handleActorExit (env : Env) (policy : SupervisionPolicy) (orch : Orchestrator Reports) :
    Option (Reaction Trie Reports) :=
  match policy with
  | .critical => none
  | .restartable => some (orch.reconcile env)
  | .detached => some orch.idle

/-- `none` leaves the loop. -/
def handleEvent [Inhabited Reports] (env : Env) (event : Event) (orch : Orchestrator Reports) :
    Option (Reaction Trie Reports) :=
  match event with
  | .stop => none
  | .actorExited policy => orch.handleActorExit env policy
  | .dns state => some (orch.handleDnsSnapshot env state)
  | .postConfig peers =>
      match orch.handlePostConfig env peers with
      | .ok reaction => some reaction
      | .error _ => some orch.idle
  | .deleteConfig peerIds => some (orch.handleDeleteConfig peerIds)
  | .connected peerId remoteAddr tx endpoint =>
      some (orch.updateBound env peerId endpoint remoteAddr tx)
  | .dialFailed peerId ip => some (orch.handleDialFailed env peerId ip)
  | .other => some orch.idle

def listedBy (event : Event) (orch : Orchestrator Reports) : HashMap String Peer :=
  match event with
  | .postConfig peers => orch.mergedPeers peers
  | _ => orch.peerConfigs

/-- Every reaction that lets the loop go on. -/
inductive Reacts [Inhabited Reports] (env : Env) (orch : Orchestrator Reports) :
    Event → Reaction Trie Reports → Prop where
  | exited : Reacts env orch (.actorExited .detached) orch.idle
  | reconciled : Reacts env orch (.actorExited .restartable) (orch.reconcile env)
  | resolved (state : DnsSnapshot) : Reacts env orch (.dns state) (orch.handleDnsSnapshot env state)
  | rejected (peers : List Peer) : Reacts env orch (.postConfig peers) orch.idle
  | posted (peers : List Peer) {next : Orchestrator Reports}
      (accepted : validatePeers env.listed = .ok ())
      (updated : next = { orch with peers := peers.foldl upsertPeer orch.peers }) :
      Reacts env orch (.postConfig peers) ⟨next, next.syncPeersToActors, 0⟩
  | deleted (peerIds : List String) : Reacts env orch (.deleteConfig peerIds)
      (orch.handleDeleteConfig peerIds)
  | connected (peerId : String) (remoteAddr : SocketAddr) (tx : Sender)
      (endpoint : Option Endpoint) :
      Reacts env orch (.connected peerId remoteAddr tx endpoint)
        (orch.updateBound env peerId endpoint remoteAddr tx)
  | failed (peerId : String) (ip : IpAddr) : Reacts env orch (.dialFailed peerId ip)
      (orch.handleDialFailed env peerId ip)
  | ignored : Reacts env orch .other orch.idle

theorem reacts_of_handleEvent [Inhabited Reports] {env : Env} {event : Event}
    {orch : Orchestrator Reports} {reaction : Reaction Trie Reports}
    (handled : orch.handleEvent env event = some reaction) : Reacts env orch event reaction := by
  cases event with
  | stop => cases handled
  | actorExited policy =>
    cases policy with
    | critical => cases handled
    | restartable => cases handled; exact .reconciled
    | detached => cases handled; exact .exited
  | dns state => cases handled; exact .resolved state
  | postConfig peers =>
    simp only [handleEvent, handlePostConfig] at handled
    cases validated : validatePeers env.listed with
    | error errors =>
      simp only [validated, Option.some.injEq] at handled
      subst handled
      exact .rejected peers
    | ok =>
      simp only [validated, Option.some.injEq] at handled
      subst handled
      exact .posted peers validated rfl
  | deleteConfig peerIds => cases handled; exact .deleted peerIds
  | connected peerId remoteAddr tx endpoint =>
    cases handled; exact .connected peerId remoteAddr tx endpoint
  | dialFailed peerId ip => cases handled; exact .failed peerId ip
  | other => cases handled; exact .ignored

end Handlers

/-! ## The peers after a handler -/

def lastFor (peers : List Peer) (id : String) : Option Peer :=
  peers.reverse.find? fun peer => peer.id = id

theorem lastFor_cons (peer : Peer) (rest : List Peer) (id : String) :
    lastFor (peer :: rest) id = (lastFor rest id).or
      (if peer.id = id then some peer else none) := by
  simp only [lastFor, List.reverse_cons, List.find?_append, List.find?_singleton, decide_eq_true_eq]

theorem lastFor_id {peers : List Peer} {id : String} {peer : Peer}
    (found : lastFor peers id = some peer) : peer.id = id := by
  simpa using List.find?_some found

theorem lastFor_mem {peers : List Peer} {id : String} {peer : Peer}
    (found : lastFor peers id = some peer) :
    peer ∈ peers := List.mem_reverse.mp (List.mem_of_find?_eq_some found)

theorem lookup_insertAll {V : Type} (value : Peer → V) (peers : List Peer)
    (map : HashMap String V) (id : String) :
    (peers.foldl (fun map peer => map.insert peer.id (value peer)) map).lookup id =
      ((lastFor peers id).map value).or (map.lookup id) := by
  induction peers generalizing map with
  | nil => simp [lastFor]
  | cons peer rest ih =>
    rw [List.foldl_cons, ih, lastFor_cons]
    by_cases same : peer.id = id
    · subst same
      cases lastFor rest peer.id <;> simp
    · cases lastFor rest id <;> simp [same, Finmap.lookup_insert_of_ne map (Ne.symm same)]

theorem lookup_eraseAll (ids : List String) (peers : HashMap String (PeerEntry Reports))
    (id : String) :
    (ids.foldl (fun peers id => peers.erase id) peers).lookup id =
      if id ∈ ids then none else peers.lookup id := by
  induction ids generalizing peers with
  | nil => simp
  | cons head rest ih =>
    rw [List.foldl_cons, ih]
    by_cases same : id = head
    · subst same
      simp
    · simp [same]

theorem lookup_upsertPeer (peers : HashMap String (PeerEntry Reports)) (peer : Peer) (id : String) :
    (upsertPeer peers peer).lookup id =
      if id = peer.id then
        some (((peers.lookup id).map fun existing => { existing with config := peer }).getD
          (.new peer))
      else peers.lookup id := by
  unfold upsertPeer
  by_cases same : id = peer.id
  · subst same
    cases peers.lookup peer.id <;> simp
  · rw [if_neg same]
    split <;> exact Finmap.lookup_insert_of_ne _ same

theorem lookup_handleDnsSnapshot [PrefixTrie Trie] (env : Env) (state : DnsSnapshot)
    (orch : Orchestrator Reports) (id : String) :
    (orch.handleDnsSnapshot env state : Reaction Trie Reports).orch.peers.lookup id =
      (orch.peers.lookup id).map fun entry =>
        ((resolve state entry).maintain env.isClosed env.now).1 := by
  simp [handleDnsSnapshot, maintainAll]

theorem lookup_updateBound [PrefixTrie Trie] [Inhabited Reports] (env : Env) (peerId : String)
    (endpoint : Option Endpoint) (dest : SocketAddr) (tx : Sender) (orch : Orchestrator Reports)
    (id : String) :
    (orch.updateBound env peerId endpoint dest tx : Reaction Trie Reports).orch.peers.lookup id =
      (orch.peers.lookup id).map fun entry =>
        if id = peerId then ((pushBound endpoint dest tx entry).prune env.isClosed).1
          else entry := by
  unfold updateBound
  cases found : orch.peers.lookup peerId with
  | none =>
    by_cases same : id = peerId
    · subst same
      simp [idle, found]
    · simp [idle, same]
  | some entry =>
    by_cases same : id = peerId
    · subst same
      simp [found]
    · simp [same]

theorem dials_updateBound [PrefixTrie Trie] [Inhabited Reports] (env : Env) (peerId : String)
    (endpoint : Option Endpoint) (dest : SocketAddr) (tx : Sender) (orch : Orchestrator Reports) :
    (orch.updateBound env peerId endpoint dest tx : Reaction Trie Reports).dials = 0 := by
  unfold updateBound
  split <;> rfl

/-- The entry after a failed dial; without a dial state there is nothing to record. -/
def failDial (backoff : Backoff) (now : Nat) (ip : IpAddr)
    (entry : PeerEntry Reports) : PeerEntry Reports :=
  match entry.dials.lookup ip with
  | none => entry
  | some state => { entry with dials := entry.dials.insert ip (state.recordFailure backoff now) }

theorem lookup_handleDialFailed (env : Env) (peerId : String) (ip : IpAddr)
    (orch : Orchestrator Reports) (id : String) :
    (orch.handleDialFailed env peerId ip : Reaction Trie Reports).orch.peers.lookup id =
      (orch.peers.lookup id).map fun entry =>
        if id = peerId then failDial orch.backoff env.now ip entry else entry := by
  unfold handleDialFailed
  by_cases same : id = peerId
  · subst same
    cases found : orch.peers.lookup id with
    | none => simp [idle, found]
    | some entry => cases dialed : entry.dials.lookup ip <;> simp [idle, found, dialed, failDial]
  · cases found : orch.peers.lookup peerId with
    | none => simp [idle, same]
    | some entry => cases dialed : entry.dials.lookup ip <;> simp [idle, same, dialed]

theorem dials_handleDialFailed (env : Env) (peerId : String) (ip : IpAddr)
    (orch : Orchestrator Reports) :
    (orch.handleDialFailed env peerId ip : Reaction Trie Reports).dials = 0 := by
  unfold handleDialFailed
  split
  · rfl
  · split <;> rfl

end Orchestrator
end H3llo.Orch
