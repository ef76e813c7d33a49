import H3llo.Basis.Runs
import H3llo.Orch.Orchestrator

/-! The control plane: orchestrator, resolver and their clients joined by FIFO inboxes.

Every action moves one party by one event. Dial tasks carry the number of dials that
were started before them for the same peer and address; that number, the origin of a
message and the last three fields of a state are history, which no party reads.
-/

set_option autoImplicit false

namespace H3llo.Orch
open H3llo.Net H3llo.Config H3llo.Dns H3llo.Router

namespace Event

def IsSnapshot : Event → Prop
  | .dns _ => True
  | _ => False

instance (event : Event) : Decidable event.IsSnapshot :=
  match event with
  | .dns _ => .isTrue trivial
  | .stop | .actorExited _ | .postConfig _ | .deleteConfig _ | .connected .. | .dialFailed ..
  | .other => .isFalse id

theorem eq_dns_of_isSnapshot {event : Event} (snapshot : event.IsSnapshot) :
    ∃ state, event = .dns state := by
  cases event with
  | dns state => exact ⟨state, rfl⟩
  | _ => exact snapshot.elim

theorem not_isSnapshot_of_leaves {Trie : Type → Type} [PrefixTrie Trie] {orch : Orchestrator}
    {env : Env} {event : Event}
    (leaves : (orch.handleEvent env event : Option (Reaction Trie)) = none) :
    ¬ event.IsSnapshot := by
  intro snapshot
  obtain ⟨state, rfl⟩ := eq_dns_of_isSnapshot snapshot
  cases leaves

def channels : Event → Finset Sender
  | .connected _ _ tx _ => {tx}
  | _ => ∅

end Event

structure DialTask where
  dial : Dial
  generation : Nat
  deriving DecidableEq, Repr

structure Envelope where
  event : Event
  origin : Option DialTask

structure System (Trie : Type → Type) where
  orch : Orchestrator
  running : Bool
  inbox : List Envelope
  /-- Messages from the orchestrator that are not handled yet. -/
  mail : Mail Trie
  clock : Nat
  dns : DnsActor
  router : RoutingTable Trie
  acceptedSources : Finset IpAddr
  peerTokens : HashMap String String
  syncedRoutes : Option SyncRoutes
  dialTasks : Multiset DialTask
  closed : Finset Sender
  /-- Channels that a connection has been given. -/
  issued : Finset Sender
  /-- Number of dials started for a peer and an address. -/
  started : String → IpAddr → Nat
  /-- The snapshot handled last, and the hostname of each peer at that time. -/
  lastSnapshot : DnsSnapshot
  lastHosts : HashMap String String

inductive Action where
  /-- The orchestrator handles its oldest message. -/
  | handle (now : Nat) (listed : List Peer)
  | reconcile (now : Nat) (listed : List Peer)
  /-- The resolver handles its oldest registration update. -/
  | dnsReceive (now : Nat)
  /-- The resolver takes a branch other than its inbox. -/
  | dnsBranch (now : Nat) (input : DnsInput)
  | routerReceive
  | bareReceive
  | h3Receive
  | routeReceive
  | dialConnected (task : DialTask) (tx : Sender)
  | dialFailed (task : DialTask)
  /-- A dial task ends without a report. -/
  | dialAborted (task : DialTask)
  /-- A message from the API, a listener or the supervision. -/
  | external (event : Event)
  | close (tx : Sender)

variable {Trie : Type → Type} [PrefixTrie Trie]

namespace Orchestrator

/-- Peers of a configuration; of two with one id the later one counts. -/
def initialPeers {Reports : Type} (peers : List Peer) : HashMap String (PeerEntry Reports) :=
  peers.foldl (fun entries peer => entries.insert peer.id (.new peer)) ∅

theorem lookup_initialPeers {Reports : Type} (peers : List Peer) (id : String) :
    (initialPeers peers : HashMap String (PeerEntry Reports)).lookup id =
      (lastFor peers id).map .new := by
  simpa [initialPeers] using lookup_insertAll PeerEntry.new peers ∅ id

theorem fresh_initialPeers {Reports : Type} {peers : List Peer} {id : String}
    {entry : PeerEntry Reports} (found : (initialPeers peers).lookup id = some entry) :
    ∃ peer, entry = .new peer ∧ peer.id = id := by
  rw [lookup_initialPeers] at found
  obtain ⟨peer, last, rfl⟩ := Option.map_eq_some_iff.mp found
  exact ⟨peer, rfl, lastFor_id last⟩

def hostnames (orch : Orchestrator) : HashMap String String :=
  orch.peers.filterMap fun _ entry => peerDnsHostname entry.config

end Orchestrator

namespace System

/-- The state after `Orchestrator::new`, which ends by telling the actors about the peers. -/
def new (orch : Orchestrator) (peers : List Peer) : System Trie :=
  let orch := { orch with peers := Orchestrator.initialPeers peers }
  { orch
    running := true
    inbox := []
    mail := orch.syncPeersToActors
    clock := 0
    dns := .new
    router := .new
    acceptedSources := ∅
    peerTokens := ∅
    syncedRoutes := none
    dialTasks := 0
    closed := ∅
    issued := ∅
    started := fun _ _ => 0
    lastSnapshot := ∅
    lastHosts := ∅ }

def isClosed (sys : System Trie) (tx : Sender) : Bool := decide (tx ∈ sys.closed)

def absorb (sys : System Trie) (reaction : Reaction Trie) : System Trie :=
  { sys with
    orch := reaction.orch
    mail := sys.mail.append reaction.mail
    dialTasks := sys.dialTasks + reaction.dials.map fun dial =>
      ⟨dial, sys.started dial.peerId dial.dialIp⟩
    started := fun peerId ip => sys.started peerId ip + reaction.dials.countP
      (Dial.IsFor peerId ip) }

def remember (event : Event) (sys : System Trie) : System Trie :=
  match event with
  | .dns state => { sys with lastSnapshot := state, lastHosts := sys.orch.hostnames }
  | _ => sys

omit [PrefixTrie Trie] in
theorem remember_eq (event : Event) (sys : System Trie) :
    sys.remember event =
      { sys with
        lastSnapshot := (sys.remember event).lastSnapshot
        lastHosts := (sys.remember event).lastHosts } := by
  cases event <;> rfl

/-! ## The parties -/

def handle (now : Nat) (listed : List Peer) (sys : System Trie) : Option (System Trie) :=
  match sys.inbox with
  | [] => none
  | envelope :: rest =>
      -- Any order in which the handler may meet the peers is allowed.
      if sys.running ∧ sys.clock ≤ now ∧ HashMap.Enumerates listed
        (sys.orch.listedBy envelope.event) then
        let env : Env := ⟨now, sys.isClosed, listed⟩
        match sys.orch.handleEvent env envelope.event with
        | none => some { sys with inbox := rest, clock := now, running := false }
        | some reaction =>
            some (({ sys with inbox := rest, clock := now }.absorb reaction).remember
              envelope.event)
      else none

def reconcile (now : Nat) (listed : List Peer) (sys : System Trie) : Option (System Trie) :=
  if sys.running ∧ sys.clock ≤ now ∧ HashMap.Enumerates listed sys.orch.peerConfigs then
    some ({ sys with clock := now }.absorb (sys.orch.reconcile ⟨now, sys.isClosed, listed⟩))
  else none

def dnsIterate (tuning : DnsTuning) (now : Nat) (input : DnsInput) (sys : System Trie) :
    Option (System Trie) :=
  if sys.clock ≤ now then
    (sys.dns.iterate tuning now input).map fun (dns, emitted) =>
      { sys with
        dns
        clock := now
        inbox := sys.inbox ++ emitted.toList.map fun state => ⟨.dns state, none⟩ }
  else none

def dnsReceive (tuning : DnsTuning) (now : Nat) (sys : System Trie) : Option (System Trie) :=
  match sys.mail.dns with
  | [] => none
  | hosts :: rest =>
      { sys with mail := { sys.mail with dns := rest } }.dnsIterate tuning now (.setHostnames hosts)

def dnsBranch (tuning : DnsTuning) (now : Nat) (input : DnsInput) (sys : System Trie) :
    Option (System Trie) :=
  match input with
  | .setHostnames _ => none
  | input => sys.dnsIterate tuning now input

def routerReceive (sys : System Trie) : Option (System Trie) :=
  match sys.mail.router with
  | [] => none
  | routing :: rest => some { sys with router := routing, mail := { sys.mail with router := rest } }

def bareReceive (sys : System Trie) : Option (System Trie) :=
  match sys.mail.bareRx with
  | [] => none
  | sources :: rest =>
      some { sys with acceptedSources := sources, mail := { sys.mail with bareRx := rest } }

def h3Receive (sys : System Trie) : Option (System Trie) :=
  match sys.mail.h3Listener with
  | [] => none
  | tokens :: rest =>
      some { sys with peerTokens := tokens, mail := { sys.mail with h3Listener := rest } }

def routeReceive (sys : System Trie) : Option (System Trie) :=
  match sys.mail.route with
  | [] => none
  | routes :: rest =>
      some { sys with syncedRoutes := some routes, mail := { sys.mail with route := rest } }

/-- A message to the orchestrator; the channel that it carries is in use from now on. -/
def deliver (envelope : Envelope) (sys : System Trie) : System Trie :=
  { sys with inbox := sys.inbox ++ [envelope], issued := envelope.event.channels ∪ sys.issued }

def dialConnected (task : DialTask) (tx : Sender) (sys : System Trie) : Option (System Trie) :=
  match transportEndpoint task.dial.transport with
  | none => none
  | some endpoint =>
      if task ∈ sys.dialTasks ∧ tx ∉ sys.issued then
        let event := .connected task.dial.peerId ⟨task.dial.dialIp, endpoint.port⟩ tx
          (some endpoint)
        some ({ sys with dialTasks := sys.dialTasks.erase task }.deliver ⟨event, some task⟩)
      else none

def dialFailed (task : DialTask) (sys : System Trie) : Option (System Trie) :=
  if task ∈ sys.dialTasks then
    let event := .dialFailed task.dial.peerId task.dial.dialIp
    some ({ sys with dialTasks := sys.dialTasks.erase task }.deliver ⟨event, some task⟩)
  else none

def dialAborted (task : DialTask) (sys : System Trie) : Option (System Trie) :=
  if task ∈ sys.dialTasks then some { sys with dialTasks := sys.dialTasks.erase task } else none

def external (event : Event) (sys : System Trie) : Option (System Trie) :=
  if ¬ event.IsSnapshot ∧ Disjoint event.channels sys.issued then
    some (sys.deliver ⟨event, none⟩)
  else none

def close (tx : Sender) (sys : System Trie) : System Trie :=
  { sys with closed := insert tx sys.closed }

def step (tuning : DnsTuning) (action : Action) (sys : System Trie) : Option (System Trie) :=
  match action with
  | .handle now listed => sys.handle now listed
  | .reconcile now listed => sys.reconcile now listed
  | .dnsReceive now => sys.dnsReceive tuning now
  | .dnsBranch now input => sys.dnsBranch tuning now input
  | .routerReceive => sys.routerReceive
  | .bareReceive => sys.bareReceive
  | .h3Receive => sys.h3Receive
  | .routeReceive => sys.routeReceive
  | .dialConnected task tx => sys.dialConnected task tx
  | .dialFailed task => sys.dialFailed task
  | .dialAborted task => sys.dialAborted task
  | .external event => sys.external event
  | .close tx => some (sys.close tx)

/-! ## What a step can do -/

/-- Every kind of step, with its guard and the state after it. -/
inductive Moves (tuning : DnsTuning) (sys : System Trie) : Action → System Trie → Prop where
  | handled {now : Nat} {listed : List Peer} {envelope : Envelope} {rest : List Envelope}
      {reaction : Reaction Trie} (queued : sys.inbox = envelope :: rest) (running : sys.running)
      (later : sys.clock ≤ now)
      (lists : HashMap.Enumerates listed (sys.orch.listedBy envelope.event))
      (reacts : sys.orch.handleEvent ⟨now, sys.isClosed, listed⟩ envelope.event = some reaction) :
      Moves tuning sys (.handle now listed)
        (({ sys with inbox := rest, clock := now }.absorb reaction).remember envelope.event)
  | stopped {now : Nat} {listed : List Peer} {envelope : Envelope} {rest : List Envelope}
      (queued : sys.inbox = envelope :: rest)
      (leaves : (sys.orch.handleEvent ⟨now, sys.isClosed, listed⟩ envelope.event : Option
        (Reaction Trie)) = none) :
      Moves tuning sys (.handle now listed)
        { sys with inbox := rest, clock := now, running := false }
  | reconciled {now : Nat} {listed : List Peer} (running : sys.running) (later : sys.clock ≤ now)
      (lists : HashMap.Enumerates listed sys.orch.peerConfigs) :
      Moves tuning sys (.reconcile now listed)
        ({ sys with clock := now }.absorb (sys.orch.reconcile ⟨now, sys.isClosed, listed⟩))
  | registered {now : Nat} {hosts : Finset String} {rest : List (Finset String)} {dns : DnsActor}
      {emitted : Option DnsSnapshot} (queued : sys.mail.dns = hosts :: rest)
      (later : sys.clock ≤ now)
      (iterated : sys.dns.iterate tuning now (.setHostnames hosts) = some (dns, emitted)) :
      Moves tuning sys (.dnsReceive now)
        { sys with
          mail := { sys.mail with dns := rest }, dns, clock := now
          inbox := sys.inbox ++ emitted.toList.map fun state => ⟨.dns state, none⟩ }
  | resolved {now : Nat} {input : DnsInput} {dns : DnsActor} {emitted : Option DnsSnapshot}
      (other : ∀ hosts, input ≠ .setHostnames hosts) (later : sys.clock ≤ now)
      (iterated : sys.dns.iterate tuning now input = some (dns, emitted)) :
      Moves tuning sys (.dnsBranch now input)
        { sys with
          dns, clock := now
          inbox := sys.inbox ++ emitted.toList.map fun state => ⟨.dns state, none⟩ }
  | routed {routing : RoutingTable Trie} {rest : List (RoutingTable Trie)}
      (queued : sys.mail.router = routing :: rest) :
      Moves tuning sys .routerReceive
        { sys with router := routing, mail := { sys.mail with router := rest } }
  | filtered {sources : Finset IpAddr} {rest : List (Finset IpAddr)}
      (queued : sys.mail.bareRx = sources :: rest) :
      Moves tuning sys .bareReceive
        { sys with acceptedSources := sources, mail := { sys.mail with bareRx := rest } }
  | authorised {tokens : HashMap String String} {rest : List (HashMap String String)}
      (queued : sys.mail.h3Listener = tokens :: rest) :
      Moves tuning sys .h3Receive
        { sys with peerTokens := tokens, mail := { sys.mail with h3Listener := rest } }
  | synced {routes : SyncRoutes} {rest : List SyncRoutes}
      (queued : sys.mail.route = routes :: rest) :
      Moves tuning sys .routeReceive
        { sys with syncedRoutes := some routes, mail := { sys.mail with route := rest } }
  | connected {task : DialTask} {tx : Sender} {endpoint : Endpoint}
      (dialed : transportEndpoint task.dial.transport = some endpoint) (runs : task ∈ sys.dialTasks)
      (fresh : tx ∉ sys.issued) :
      Moves tuning sys (.dialConnected task tx)
        ({ sys with dialTasks := sys.dialTasks.erase task }.deliver
          ⟨.connected task.dial.peerId ⟨task.dial.dialIp, endpoint.port⟩ tx (some endpoint),
            some task⟩)
  | failed {task : DialTask} (runs : task ∈ sys.dialTasks) :
      Moves tuning sys (.dialFailed task)
        ({ sys with dialTasks := sys.dialTasks.erase task }.deliver
          ⟨.dialFailed task.dial.peerId task.dial.dialIp, some task⟩)
  | aborted {task : DialTask} (runs : task ∈ sys.dialTasks) :
      Moves tuning sys (.dialAborted task) { sys with dialTasks := sys.dialTasks.erase task }
  | arrived {event : Event} (plain : ¬ event.IsSnapshot)
      (fresh : Disjoint event.channels sys.issued) :
      Moves tuning sys (.external event) (sys.deliver ⟨event, none⟩)
  | closed {tx : Sender} : Moves tuning sys (.close tx) (sys.close tx)

variable {tuning : DnsTuning} {sys after : System Trie}

theorem moves_of_handle {now : Nat} {listed : List Peer}
    (taken : sys.handle now listed = some after) : Moves tuning sys (.handle now listed) after := by
  unfold handle at taken
  cases queued : sys.inbox with
  | nil => simp [queued] at taken
  | cons envelope rest =>
    simp only [queued] at taken
    split at taken
    next enabled =>
      obtain ⟨running, later, lists⟩ := enabled
      cases reacts : (sys.orch.handleEvent ⟨now, sys.isClosed, listed⟩ envelope.event : Option
        (Reaction Trie)) with
      | none =>
        simp only [reacts, Option.some.injEq] at taken
        subst taken
        exact .stopped queued reacts
      | some reaction =>
        simp only [reacts, Option.some.injEq] at taken
        subst taken
        exact .handled queued running later lists reacts
    next => cases taken

omit [PrefixTrie Trie] in
theorem iterate_of_dnsIterate {now : Nat} {input : DnsInput}
    (taken : sys.dnsIterate tuning now input = some after) :
    sys.clock ≤ now ∧ ∃ dns emitted, sys.dns.iterate tuning now input = some (dns, emitted) ∧
      after = { sys with
        dns, clock := now
        inbox := sys.inbox ++ emitted.toList.map fun state => ⟨.dns state, none⟩ } := by
  unfold dnsIterate at taken
  split at taken
  next later =>
    obtain ⟨⟨dns, emitted⟩, iterated, rfl⟩ := Option.map_eq_some_iff.mp taken
    exact ⟨later, dns, emitted, iterated, rfl⟩
  next => cases taken

theorem moves_of_dnsReceive {now : Nat} (taken : sys.dnsReceive tuning now = some after) :
    Moves tuning sys (.dnsReceive now) after := by
  unfold dnsReceive at taken
  cases queued : sys.mail.dns with
  | nil => simp [queued] at taken
  | cons hosts rest =>
    simp only [queued] at taken
    obtain ⟨later, dns, emitted, iterated, rfl⟩ := iterate_of_dnsIterate taken
    exact .registered queued later iterated

theorem moves_of_dnsBranch {now : Nat} {input : DnsInput}
    (taken : sys.dnsBranch tuning now input = some after) :
    Moves tuning sys (.dnsBranch now input) after := by
  unfold dnsBranch at taken
  split at taken
  next => cases taken
  next other =>
    obtain ⟨later, dns, emitted, iterated, rfl⟩ := iterate_of_dnsIterate taken
    exact .resolved other later iterated

theorem moves_of_step {action : Action} (taken : sys.step tuning action = some after) :
    Moves tuning sys action after := by
  cases action with
  | handle now listed => exact moves_of_handle taken
  | reconcile now listed =>
    simp only [step, reconcile, Option.ite_none_right_eq_some, Option.some.injEq] at taken
    obtain ⟨⟨running, later, lists⟩, rfl⟩ := taken
    exact .reconciled running later lists
  | dnsReceive now => exact moves_of_dnsReceive taken
  | dnsBranch now input => exact moves_of_dnsBranch taken
  | routerReceive =>
    simp only [step, routerReceive] at taken
    split at taken
    next => cases taken
    next routing rest queued => cases taken; exact .routed queued
  | bareReceive =>
    simp only [step, bareReceive] at taken
    split at taken
    next => cases taken
    next sources rest queued => cases taken; exact .filtered queued
  | h3Receive =>
    simp only [step, h3Receive] at taken
    split at taken
    next => cases taken
    next tokens rest queued => cases taken; exact .authorised queued
  | routeReceive =>
    simp only [step, routeReceive] at taken
    split at taken
    next => cases taken
    next routes rest queued => cases taken; exact .synced queued
  | dialConnected task tx =>
    simp only [step, dialConnected] at taken
    split at taken
    next => cases taken
    next endpoint dialed =>
      simp only [Option.ite_none_right_eq_some, Option.some.injEq] at taken
      obtain ⟨⟨runs, fresh⟩, rfl⟩ := taken
      exact .connected dialed runs fresh
  | dialFailed task =>
    simp only [step, dialFailed, Option.ite_none_right_eq_some, Option.some.injEq] at taken
    obtain ⟨runs, rfl⟩ := taken
    exact .failed runs
  | dialAborted task =>
    simp only [step, dialAborted, Option.ite_none_right_eq_some, Option.some.injEq] at taken
    obtain ⟨runs, rfl⟩ := taken
    exact .aborted runs
  | external event =>
    simp only [step, external, Option.ite_none_right_eq_some, Option.some.injEq] at taken
    obtain ⟨⟨plain, fresh⟩, rfl⟩ := taken
    exact .arrived plain fresh
  | close tx =>
    cases taken
    exact .closed

/-! ## Sample settings -/

def sampleTuning : DnsTuning := ⟨60 * nanosPerSec, 60 * nanosPerSec⟩

def sampleOrch : Orchestrator where
  peers := ∅
  backoff := ⟨nanosPerSec, 60 * nanosPerSec⟩
  localTun := ⟨[⟨.v4 0x0a000001#32, 24, by decide⟩]⟩
  inputTx := ⟨0⟩
  hasBareRx := true
  hasH3Listener := true
  hasRoute := true

def relay : Peer := RoutingInput.samplePeer "relay" [.ofV4 0x0a010000#32 16]

def fixedRelay : Peer := { relay with transport := .bare ⟨⟨"192.0.2.1", 6635⟩, none⟩ }

def fixedRelayIp : IpAddr := .v4 0xc0000201#32

end System
end H3llo.Orch
