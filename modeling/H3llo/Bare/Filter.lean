import H3llo.Basis.Runs
import H3llo.Metrics
import H3llo.Net.Address
import Mathlib.Data.Finset.Insert

/-! The source filter behind a BareUDP listening socket.

The filter compares the address that the socket reports with the accepted set. On
a dual-stack socket the reported address of an IPv4 sender is not its own.
-/

set_option autoImplicit false

namespace H3llo.Bare
open H3llo.Net H3llo.Runs

/-! ## The socket -/

/-- Listening sockets are IPv4, or IPv6 without `IPV6_V6ONLY`. -/
inductive ListenSocket where | v4 | dualStack
  deriving DecidableEq, Repr

namespace ListenSocket

def Hears (socket : ListenSocket) (real : IpAddr) : Prop := socket = .v4 → real.family = .v4

def reported : ListenSocket → IpAddr → IpAddr
  | .v4, real => real
  | .dualStack, real => real.mapped

end ListenSocket

/-! ## The actor -/

structure BareRx where
  acceptedSources : Finset IpAddr
  plane : DataPlane
  running : Bool

inductive FilterInput where
  | received (remote : SocketAddr) (batch : List Packet)
  | udpClosed
  | updateAcceptedSources (sources : Finset IpAddr)
  | stop
  /-- Any other message; it is logged and ignored. -/
  | unexpected
  | metricsTick (ownerOpen : Bool)

/-- One iteration of the actor's loop; a stopped actor takes none. -/
def filterStep (ingressTx : Sender) (accepts : Nat → Sender → Bool) (input : FilterInput)
    (state : BareRx) : Option BareRx :=
  if state.running then
    some <| match input with
    | .received remote batch =>
        let (count, bytes) := batchStats batch
        -- The reported address is compared as it is; a mapped one is not converted back.
        if remote.ip ∉ state.acceptedSources then
          { state with plane := state.plane.recordDrop .disallowedSource count bytes }
        else
          let (sent, plane) := state.plane.sendAndRecord accepts ingressTx batch count bytes
          { state with plane, running := sent }
    | .udpClosed => { state with running := false }
    | .updateAcceptedSources sources => { state with acceptedSources := sources }
    | .stop => { state with running := false }
    | .unexpected => state
    | .metricsTick ownerOpen => { state with running := ownerOpen }
  else none

def latestSources (initial : Finset IpAddr) (inputs : List FilterInput) : Finset IpAddr :=
  inputs.foldl (fun latest input =>
    match input with
    | .updateAcceptedSources sources => sources
    | _ => latest) initial

/-- The actor hands the batch to the router's ingress channel and nothing else. -/
def Forwards (ingressTx : Sender) (accepts : Nat → Sender → Bool) (state : BareRx)
    (remote : SocketAddr) (batch : List Packet) : Prop :=
  ∃ after, filterStep ingressTx accepts (.received remote batch) state = some after ∧
    after.plane.outlet.sent = state.plane.outlet.sent ++ [(ingressTx, batch)]

section Runs

variable {ingressTx : Sender} {accepts : Nat → Sender → Bool}

theorem acceptedSources_step {input : FilterInput} {state after : BareRx}
    (taken : filterStep ingressTx accepts input state = some after) :
    after.acceptedSources = latestSources state.acceptedSources [input] := by
  unfold filterStep at taken
  split at taken
  next =>
    cases taken
    cases input with
    | received remote batch =>
      simp only [latestSources, List.foldl_cons, List.foldl_nil]
      split <;> rfl
    | _ => rfl
  next => cases taken

theorem acceptedSources_run {inputs : List FilterInput} {start state : BareRx}
    (ran : run (filterStep ingressTx accepts) inputs start = some state) :
    state.acceptedSources = latestSources start.acceptedSources inputs := by
  induction inputs generalizing start with
  | nil =>
    cases ran
    rfl
  | cons input rest ih =>
    obtain ⟨middle, taken, remaining⟩ := Option.bind_eq_some_iff.mp ran
    rw [ih remaining, acceptedSources_step taken]
    rfl

theorem forwards_iff (isOpen : ∀ attempt tx, accepts attempt tx = true) {state : BareRx}
    (running : state.running = true) (remote : SocketAddr) (batch : List Packet) :
    Forwards ingressTx accepts state remote batch ↔ remote.ip ∈ state.acceptedSources := by
  unfold Forwards filterStep
  simp only [running, if_true, Option.some.injEq, exists_eq_left']
  by_cases listed : remote.ip ∈ state.acceptedSources
  · simp only [listed, not_true, if_false, iff_true]
    rw [DataPlane.sendAndRecord_open isOpen]
    simp [DataPlane.recordSuccess, DataPlane.sendWithBackpressure, Outlet.send_open isOpen]
  · simp [listed, DataPlane.recordDrop]

end Runs

/-- After every run a batch from a sender is forwarded as the accepted set says, in every case
but one: the socket is dual-stack, the sender has an IPv4 address, and the accepted set
tells that address and its mapped form apart. -/
theorem filter_exact_iff (ingressTx : Sender) (accepts : Nat → Sender → Bool)
    (isOpen : ∀ attempt tx, accepts attempt tx = true) (socket : ListenSocket)
    (start state : BareRx) (inputs : List FilterInput)
    (ran : run (filterStep ingressTx accepts) inputs start = some state)
    (running : state.running = true) (real : SocketAddr) (heard : socket.Hears real.ip)
    (batch : List Packet) :
    (Forwards ingressTx accepts state ⟨socket.reported real.ip, real.port⟩ batch ↔
      real.ip ∈ latestSources start.acceptedSources inputs) ↔
    ¬ (socket = .dualStack ∧ real.ip.family = .v4 ∧
      ¬ (real.ip.mapped ∈ latestSources start.acceptedSources inputs ↔
        real.ip ∈ latestSources start.acceptedSources inputs)) := by
  rw [forwards_iff isOpen running, ← acceptedSources_run ran]
  cases socket with
  | v4 => simp [ListenSocket.reported]
  | dualStack =>
    by_cases four : real.ip.family = .v4
    · simp [ListenSocket.reported, four]
    · simp [ListenSocket.reported, four, IpAddr.mapped_of_ne_v4 four]

def idleFilter : BareRx := ⟨∅, ⟨.new, .empty⟩, true⟩

def samplePeerAddr : SocketAddr := ⟨.v4 0x0a000001#32, 6635⟩

def sampleInputs : List FilterInput :=
  [.metricsTick true, .updateAcceptedSources {samplePeerAddr.ip},
    .received ⟨.v4 0x0a000002#32, 6635⟩ [[1]]]

theorem filter_v4_forwards : ∃ state,
    run (filterStep ⟨0⟩ fun _ _ => true) sampleInputs idleFilter = some state ∧
      (Forwards ⟨0⟩ (fun _ _ => true) state ⟨ListenSocket.v4.reported samplePeerAddr.ip,
        samplePeerAddr.port⟩ [[7]] ↔
        samplePeerAddr.ip ∈ latestSources ∅ sampleInputs) :=
  ⟨_, rfl,
    (filter_exact_iff ⟨0⟩ (fun _ _ => true) (fun _ _ => rfl) .v4 idleFilter _ sampleInputs rfl rfl
      samplePeerAddr
    (fun _ => rfl) [[7]]).mpr (by decide)⟩

theorem filter_dualStack_drops : ∃ state,
    run (filterStep ⟨0⟩ fun _ _ => true) sampleInputs idleFilter = some state ∧
    state.running = true ∧
      samplePeerAddr.ip ∈ latestSources ∅ sampleInputs ∧
      ¬ Forwards ⟨0⟩ (fun _ _ => true) state
        ⟨ListenSocket.dualStack.reported samplePeerAddr.ip, samplePeerAddr.port⟩ [[7]] := by
  refine ⟨_, rfl, rfl, by decide, ?_⟩
  rw [forwards_iff (fun _ _ => rfl) rfl]
  decide

end H3llo.Bare
