import H3llo.Basis.Channel
import H3llo.Basis.HashMap
import H3llo.Config.Peers

/-! One peer of the orchestrator: its connections, resolved addresses and dials.

What is kept of the metrics of a connection is a parameter, since only the handler that
stores them reads them; where they do not matter it is nothing. Which channels are closed
is read from the environment, once for each handled event.
-/

set_option autoImplicit false

namespace H3llo.Orch
open H3llo.Net H3llo.Config

inductive Endpoint where
  | udp (endpoint : UdpEndpoint)
  | h3 (endpoint : H3Endpoint)
  deriving DecidableEq, Repr

def Endpoint.port : Endpoint → UInt16
  | .udp endpoint => endpoint.port
  | .h3 endpoint => endpoint.port

/-- An established connection; inbound ones have no endpoint. Its latest metrics are `reports`. -/
structure ActiveConn (Reports : Type := Unit) where
  endpoint : Option Endpoint
  dest : SocketAddr
  tx : Sender
  reports : Reports
  deriving DecidableEq, Repr

structure DialState where
  attempt : Nat
  nextAllowedAt : Nat
  inFlight : Bool
  deriving DecidableEq, Repr

structure Backoff where
  min : Nat
  max : Nat
  deriving DecidableEq, Repr

def durationMax : Nat := 2 ^ 64 * 1000000000 - 1

def u32Max : Nat := 2 ^ 32 - 1

/-- Delay after a failure that follows `attempt` failures in a row. -/
def Backoff.delay (backoff : Backoff) (attempt : Nat) : Nat :=
  -- The exponent is capped and the product saturates before the maximum applies.
  Min.min backoff.max (Min.min (backoff.min * 2 ^ Min.min attempt 30) durationMax)

namespace DialState

def newInFlight (now : Nat) : DialState := ⟨0, now, true⟩

def recordFailure (backoff : Backoff) (now : Nat) (state : DialState) : DialState where
  attempt := Min.min (state.attempt + 1) u32Max
  nextAllowedAt := now + backoff.delay state.attempt
  inFlight := false

/-- A dial that runs, or whose backoff has not elapsed, blocks another one. -/
def blocks (now : Nat) (state : DialState) : Bool :=
  state.inFlight || decide (now < state.nextAllowedAt)

end DialState

structure PeerEntry (Reports : Type := Unit) where
  config : Peer
  /-- Connections in order of preference. -/
  bounds : List (ActiveConn Reports)
  resolvedIps : Finset IpAddr
  dials : HashMap IpAddr DialState

def transportEndpoint : PeerTransport → Option Endpoint
  | .bare options => some (.udp options.endpoint)
  | .h3 options => options.endpoint.map .h3

structure Dial where
  peerId : String
  dialIp : IpAddr
  transport : PeerTransport
  deriving DecidableEq, Repr

def Dial.IsFor (peerId : String) (ip : IpAddr) (dial : Dial) : Prop :=
  dial.peerId = peerId ∧ dial.dialIp = ip

instance (peerId : String) (ip : IpAddr) : DecidablePred (Dial.IsFor peerId ip) :=
  fun _ => inferInstanceAs (Decidable (_ ∧ _))

namespace PeerEntry

variable {Reports : Type}

def new (config : Peer) : PeerEntry Reports := ⟨config, [], ∅, ∅⟩

def preferredTx (entry : PeerEntry Reports) : Option Sender := entry.bounds.head?.map ActiveConn.tx

def configEndpoint (entry : PeerEntry Reports) : Option Endpoint :=
  transportEndpoint entry.config.transport

/-- A bound survives while its channel is open and, if it was dialed, while the peer still has
its endpoint and address. -/
def keeps (isClosed : Sender → Bool) (entry : PeerEntry Reports)
    (bound : ActiveConn Reports) : Bool :=
  !isClosed bound.tx &&
    match bound.endpoint with
    | none => true
    | some endpoint =>
      decide (entry.configEndpoint = some endpoint) && decide (bound.dest.ip ∈ entry.resolvedIps)

/-- Drops invalid bounds and stale dial states; the flag says whether the preferred TX changed. -/
def prune (isClosed : Sender → Bool) (entry : PeerEntry Reports) : PeerEntry Reports × Bool :=
  let bounds := entry.bounds.filter (entry.keeps isClosed)
  let pruned :=
    { entry with bounds, dials := entry.dials.retain fun ip _ => decide (ip ∈ entry.resolvedIps) }
  (pruned,
    match entry.bounds.head?, bounds.head? with
    | some old, some new => decide (old.tx ≠ new.tx)
    | none, none => false
    | _, _ => true)

def coveredIps (entry : PeerEntry Reports) : Finset IpAddr :=
  (entry.bounds.map fun bound => bound.dest.ip).toFinset

def mayDial (now : Nat) (entry : PeerEntry Reports) (ip : IpAddr) : Bool :=
  match entry.dials.lookup ip with
  | some state => !state.blocks now
  | none => true

def uncovered (now : Nat) (entry : PeerEntry Reports) : Finset IpAddr :=
  (entry.resolvedIps \ entry.coveredIps).filter fun ip => entry.mayDial now ip

/-- Dial state of an address that is dialed now; failures so far stay counted. -/
def dialed (now : Nat) (entry : PeerEntry Reports) (ip : IpAddr) : DialState :=
  match entry.dials.lookup ip with
  | some state => { state with inFlight := true }
  | none => .newInFlight now

def tryConnect (now : Nat) (entry : PeerEntry Reports) : PeerEntry Reports × Multiset Dial :=
  -- No report of these dials is handled before the pass is over.
  let uncovered := entry.uncovered now
  ({ entry with dials := entry.dials.overlay uncovered (entry.dialed now) },
    uncovered.val.map fun ip => ⟨entry.config.id, ip, entry.config.transport⟩)

def maintain (isClosed : Sender → Bool) (now : Nat) (entry : PeerEntry Reports) :
    PeerEntry Reports × Multiset Dial :=
  tryConnect now (prune isClosed entry).1

end PeerEntry

def stripIpv6Brackets (host : String) : String :=
  String.ofList ((host.toList.dropWhile (· = '[')).reverse.dropWhile (· = ']')).reverse

/-- The name to resolve for a transport. Only HTTP/3 hosts lose their brackets. -/
def transportHostname : PeerTransport → Option String
  | .bare options => some options.endpoint.host
  | .h3 options => options.endpoint.map fun endpoint => stripIpv6Brackets endpoint.host

def peerDnsHostname (peer : Peer) : Option String := transportHostname peer.transport

/-! ## Pruning -/

namespace PeerEntry

variable {Reports : Type}

@[simp] theorem prune_bounds (isClosed : Sender → Bool) (entry : PeerEntry Reports) :
    (entry.prune isClosed).1.bounds = entry.bounds.filter (entry.keeps isClosed) := rfl

@[simp] theorem prune_resolvedIps (isClosed : Sender → Bool) (entry : PeerEntry Reports) :
    (entry.prune isClosed).1.resolvedIps = entry.resolvedIps := rfl

@[simp] theorem prune_dials (isClosed : Sender → Bool) (entry : PeerEntry Reports) (ip : IpAddr) :
    (entry.prune isClosed).1.dials.lookup ip =
      (entry.dials.lookup ip).filter fun _ => decide (ip ∈ entry.resolvedIps) := by
  simp [prune]

theorem prune_preferredTx {isClosed : Sender → Bool} {entry : PeerEntry Reports}
    (unchanged : (entry.prune isClosed).2 = false) :
    (entry.prune isClosed).1.preferredTx = entry.preferredTx := by
  unfold preferredTx
  rw [prune_bounds]
  simp only [prune] at unchanged
  cases old : entry.bounds.head? with
  | none =>
    cases new : (entry.bounds.filter (entry.keeps isClosed)).head? with
    | none => rfl
    | some bound => simp [old, new] at unchanged
  | some first =>
    cases new : (entry.bounds.filter (entry.keeps isClosed)).head? with
    | none => simp [old, new] at unchanged
    | some bound =>
      simp only [old, new, ne_eq, decide_eq_false_iff_not, Decidable.not_not] at unchanged
      simp [unchanged]

/-! ## Dialing -/

@[simp] theorem tryConnect_bounds (now : Nat) (entry : PeerEntry Reports) :
    (entry.tryConnect now).1.bounds = entry.bounds := rfl

@[simp] theorem tryConnect_resolvedIps (now : Nat) (entry : PeerEntry Reports) :
    (entry.tryConnect now).1.resolvedIps = entry.resolvedIps := rfl

@[simp] theorem tryConnect_dials (now : Nat) (entry : PeerEntry Reports) (ip : IpAddr) :
    (entry.tryConnect now).1.dials.lookup ip =
      if ip ∈ entry.uncovered now then some (entry.dialed now ip) else entry.dials.lookup ip := by
  simp [tryConnect]

theorem mem_tryConnect {now : Nat} {entry : PeerEntry Reports} {dial : Dial} :
    dial ∈ (entry.tryConnect now).2 ↔
      dial.peerId = entry.config.id ∧ dial.transport = entry.config.transport ∧
      dial.dialIp ∈ entry.uncovered now := by
  obtain ⟨peerId, dialIp, transport⟩ := dial
  simp only [tryConnect, Multiset.mem_map, Finset.mem_val, Dial.mk.injEq]
  constructor
  · rintro ⟨ip, member, rfl, rfl, rfl⟩
    exact ⟨rfl, rfl, member⟩
  · rintro ⟨rfl, rfl, member⟩
    exact ⟨dialIp, member, rfl, rfl, rfl⟩

theorem uncovered_resolved {now : Nat} {entry : PeerEntry Reports} {ip : IpAddr}
    (dialed : ip ∈ entry.uncovered now) :
    ip ∈ entry.resolvedIps := (Finset.mem_sdiff.mp (Finset.mem_filter.mp dialed).1).1

theorem uncovered_free {now : Nat} {entry : PeerEntry Reports} {ip : IpAddr}
    (dialed : ip ∈ entry.uncovered now) : ∀ bound ∈ entry.bounds, bound.dest.ip ≠ ip := by
  intro bound member same
  apply (Finset.mem_sdiff.mp (Finset.mem_filter.mp dialed).1).2
  rw [coveredIps, List.mem_toFinset, List.mem_map]
  exact ⟨bound, member, same⟩

theorem uncovered_idle {now : Nat} {entry : PeerEntry Reports} {ip : IpAddr}
    (dialed : ip ∈ entry.uncovered now) {state : DialState}
    (found : entry.dials.lookup ip = some state) : state.inFlight = false := by
  have idle := (Finset.mem_filter.mp dialed).2
  simp only [mayDial, found, DialState.blocks, Bool.not_eq_true', Bool.or_eq_false_iff] at idle
  exact idle.1

@[simp] theorem dialed_inFlight (now : Nat) (entry : PeerEntry Reports) (ip : IpAddr) :
    (entry.dialed now ip).inFlight = true := by
  unfold dialed
  split <;> rfl

end PeerEntry
end H3llo.Orch
