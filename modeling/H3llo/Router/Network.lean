import H3llo.Basis.Descent
import H3llo.Router.Actor

/-! Routers that forward to each other.

A network is any number of router actors whose peer channels lead to the ingress channels of
other routers. Tables, channels and the order of all steps are arbitrary, and links may lose
and reorder packets, but do not make copies of them. Nothing is assumed of the tables, which
may well send a packet in a circle.
-/

set_option autoImplicit false

namespace H3llo.Router
open H3llo.Net H3llo.Runs

variable {Node : Type} {Trie : Type → Type} [PrefixTrie Trie]

/-- What a network is connected by: each router's TUN channel, and the router that a peer channel
leads to, if any. -/
structure Topology (Node : Type) where
  inputTx : Node → Sender
  link : Node → Sender → Option Node

structure Network (Node : Type) (Trie : Type → Type) where
  actors : Node → RouterActor Trie
  transit : Multiset (Node × Packet)
  received : Multiset (Node × Packet)

inductive NetworkAction (Node : Type) (Trie : Type → Type) where
  | turn (node : Node) (input : RouterInput Trie)
  | lose (node : Node) (packet : Packet)

namespace Topology

variable (topology : Topology Node)

def toTun (node : Node) (delivery : Sender × Packet) : Option (Node × Packet) :=
  if delivery.1 = topology.inputTx node then some (node, delivery.2) else none

def toPeer (node : Node) (delivery : Sender × Packet) : Option (Node × Packet) :=
  if delivery.1 = topology.inputTx node then none
  else (topology.link node delivery.1).map fun peer => (peer, delivery.2)

end Topology

def NetworkAction.injected : NetworkAction Node Trie → List Packet
  | .turn _ (.output (some batch)) => batch
  | .turn _ (.output none) | .turn _ (.ingress _) | .turn _ (.updateRouting _) | .turn _ .stop
  | .turn _ .inboxClosed
  | .turn _ .unexpected | .turn _ (.tick _) | .lose _ _ => []

def NetworkAction.arrived : NetworkAction Node Trie → Nat
  | .turn _ (.ingress (some batch)) => batch.length
  | .turn _ (.ingress none) | .turn _ (.output _) | .turn _ (.updateRouting _) | .turn _ .stop
  | .turn _ .inboxClosed
  | .turn _ .unexpected | .turn _ (.tick _) | .lose _ _ => 0

namespace Network

def spawn (tables : Node → RoutingTable Trie) : Network Node Trie :=
  ⟨fun node => .spawn (tables node), 0, 0⟩

def arriving (node : Node) : RouterInput Trie → Multiset (Node × Packet)
  | .ingress (some batch) => Multiset.ofList (batch.map fun packet => (node, packet))
  | .ingress none | .output _ | .updateRouting _ | .stop | .inboxClosed | .unexpected | .tick _ => 0

def step [DecidableEq Node] (topology : Topology Node) (accepts : Node → Nat → Sender → Bool) :
    NetworkAction Node Trie → Network Node Trie → Option (Network Node Trie)
  | .turn node input, network =>
      if arriving node input ≤ network.transit then
        ((network.actors node).step (topology.inputTx node) (accepts node) input).map fun actor =>
          let placed := actor.plane.delivered.drop (network.actors node).plane.delivered.length
          { actors := Function.update network.actors node actor
            transit := network.transit - arriving node input + Multiset.ofList
              (placed.filterMap (topology.toPeer node))
            received := network.received + Multiset.ofList
              (placed.filterMap (topology.toTun node)) }
      else none
  | .lose node packet, network =>
      some { network with transit := network.transit.erase (node, packet) }

end Network

/-! ## Packets and their hops -/

theorem ttl_decrementTtl {packet : Packet} (formed : WellFormed packet) :
    (ttl (decrementTtl packet).2).toNat = (ttl packet).toNat - 1 := by
  rcases formed with ⟨four, long⟩ | ⟨six, long⟩
  · rw [decrementTtl_v4 four long]
    split
    next spent =>
      have zero : (ttl packet).toNat = 0 := by rw [ttl, if_pos four, ipv4TtlOffset, spent]; rfl
      rw [zero]
    next alive =>
      have lower := toNat_sub_one alive
      rw [ttl, ttl, if_pos (by rw [version_rewriteV4, four]), if_pos four, ipv4TtlOffset,
        getD_ttl_rewriteV4 long]
      omega
  · have notFour (packet : Packet) (six : version packet = 6) : version packet ≠ 4 :=
      fun four => version_four_ne_six four six
    rw [decrementTtl_v6 six long]
    split
    next spent =>
      have zero : (ttl packet).toNat = 0 := by
        rw [ttl, if_neg (notFour packet six), ipv6HopLimitOffset, spent]; rfl
      rw [zero]
    next alive =>
      have lower := toNat_sub_one alive
      have inside : 7 < packet.length := by unfold ipv6MinLen at long; omega
      have kept : version (packet.set 7 (packet.getD 7 0 - 1)) = 6 := by simpa [version] using six
      rw [ttl, ttl, if_neg (notFour _ kept), if_neg (notFour _ six), ipv6HopLimitOffset]
      simp only [List.getD_eq_getElem?_getD, List.getElem?_set_self inside,
        Option.getD_some] at lower ⊢
      omega

theorem extractDstIp_hops (packet : Packet) (count : Nat) :
    extractDstIp (hops packet count) = extractDstIp packet := by
  induction count with
  | zero => rfl
  | succ count ih => rw [hops, extractDstIp_decrementTtl, ih]

theorem wellFormed_hops_iff (packet : Packet) (count : Nat) :
    WellFormed (hops packet count) ↔ WellFormed packet := by
  rw [← extractDstIp_isSome_iff, ← extractDstIp_isSome_iff, extractDstIp_hops]

theorem ttl_hops {packet : Packet} (formed : WellFormed packet) (count : Nat) :
    (ttl (hops packet count)).toNat = (ttl packet).toNat - count := by
  induction count with
  | zero => rfl
  | succ count ih =>
    rw [hops, ttl_decrementTtl ((wellFormed_hops_iff packet count).mpr formed), ih]
    omega

/-- The second packet is the first after as many hops as its TTL allows, or fewer. -/
def Travelled (origin packet : Packet) : Prop :=
  ∃ count ≤ (ttl origin).toNat, packet = hops origin count

theorem Travelled.refl (packet : Packet) : Travelled packet packet := ⟨0, Nat.zero_le _, rfl⟩

/-- A spent or malformed packet is not changed by a hop, so the count stays within the TTL. -/
theorem Travelled.decrementTtl {origin packet : Packet} (travelled : Travelled origin packet) :
    Travelled origin (decrementTtl packet).2 := by
  obtain ⟨count, within, rfl⟩ := travelled
  by_cases formed : WellFormed origin
  · rcases Nat.lt_or_eq_of_le within with more | spent
    · exact ⟨count + 1, more, rfl⟩
    · refine ⟨count, within, decrementTtl_unchanged (.inr ?_)⟩
      have left : (ttl (hops origin count)).toNat = 0 := by rw [ttl_hops formed count]; omega
      rw [decrementTtl_fst ((wellFormed_hops_iff origin count).mpr formed)]
      exact congrArg some (UInt8.toNat_inj.mp left)
  · refine ⟨count, within, ?_⟩
    rw [decrementTtl_malformed fun reached =>
      formed ((wellFormed_hops_iff origin count).mp reached)]

def rewritten (packet : Packet) : List Nat :=
  if version packet = 4 then
    [ipv4TtlOffset, ipv4ChecksumOffset, ipv4ChecksumOffset + 1]
  else [ipv6HopLimitOffset]

theorem zero_not_mem_rewritten (packet : Packet) : 0 ∉ rewritten packet := by
  unfold rewritten
  split <;> decide

theorem SameOutside.refl (offsets : List Nat) (packet : Packet) :
    SameOutside offsets packet packet :=
  ⟨rfl, fun _ _ => rfl⟩

theorem SameOutside.trans {offsets : List Nat} {first second third : Packet}
    (left : SameOutside offsets first second) (right : SameOutside offsets second third) :
    SameOutside offsets first third :=
  ⟨right.1.trans left.1, fun offset outside => (right.2 offset outside).trans
    (left.2 offset outside)⟩

theorem sameOutside_decrementTtl (packet : Packet) :
    SameOutside (rewritten packet) packet (decrementTtl packet).2 := by
  by_cases formed : WellFormed packet
  · rcases formed with ⟨four, long⟩ | ⟨six, long⟩
    · rw [rewritten, if_pos four, decrementTtl_v4 four long]
      split
      · exact .refl _ _
      · exact sameOutside_rewriteV4 packet
    · rw [rewritten, if_neg fun four => version_four_ne_six four six]
      exact decrementTtl_v6_sameOutside six long
  · rw [decrementTtl_malformed formed]
    exact .refl _ _

theorem sameOutside_hops (packet : Packet) (count : Nat) :
    SameOutside (rewritten packet) packet (hops packet count) := by
  induction count with
  | zero => exact .refl _ _
  | succ count ih =>
    have kept : rewritten (hops packet count) = rewritten packet := by
      rw [rewritten, rewritten, version, version, ih.getD (zero_not_mem_rewritten packet)]
    have next := sameOutside_decrementTtl (hops packet count)
    rw [kept] at next
    exact ih.trans next

section Routed

variable {routing : RoutingTable Trie} {inputTx : Sender} {packet : Packet}
  {delivery : Sender × Packet}

theorem routed_cases (routed : routePacket routing inputTx packet = some delivery) :
    delivery.1 = inputTx ∧ (delivery.2 = packet ∨ delivery.2 = (decrementTtl packet).2) ∨
      delivery.2 = (decrementTtl packet).2 ∧ (ttl delivery.2).toNat + 1 = (ttl packet).toNat := by
  unfold routePacket at routed
  cases found : extractDstIp packet with
  | none => simp [found] at routed
  | some dst =>
    have formed : WellFormed packet := by rw [← extractDstIp_isSome_iff, found]; rfl
    have lower := ttl_decrementTtl formed
    rw [found] at routed
    simp only at routed
    split at routed
    · cases routed
    · split at routed
      · cases routed
        exact .inl ⟨rfl, .inl rfl⟩
      · split at routed
        · cases routed
          exact .inr ⟨rfl, by simp only; omega⟩
        · cases routed
          exact .inl ⟨rfl, .inr rfl⟩

theorem Travelled.routed {origin : Packet} (travelled : Travelled origin packet)
    (routed : routePacket routing inputTx packet = some delivery) :
    Travelled origin delivery.2 := by
  rcases routed_cases routed with ⟨_, same | hop⟩ | ⟨hop, _⟩
  · rw [same]
    exact travelled
  · rw [hop]
    exact travelled.decrementTtl
  · rw [hop]
    exact travelled.decrementTtl

end Routed

theorem routeInput_output (inputTx : Sender) (routing : RoutingTable Trie) (batch : List Packet) :
    routeInput inputTx routing (.output (some batch)) = [] ∨
      ∃ tx, routeInput inputTx routing (.output (some batch)) = batch.map fun packet =>
        (tx, packet) := by
  simp only [routeInput]
  cases (batch.head?.bind extractDstIp).bind routing.lookup with
  | none => exact .inl rfl
  | some route => exact .inr ⟨route.tx, rfl⟩

/-! ## The cost of forwarding -/

section Charge

variable (topology : Topology Node)

/-- What a packet costs at most: its hops and its last arrival. -/
def charge (packet : Packet) : Nat := (ttl packet).toNat + 1

def Network.charge (items : Multiset (Node × Packet)) : Nat :=
  (items.map fun item => Router.charge item.2).sum

theorem Network.charge_add (first second : Multiset (Node × Packet)) :
    Network.charge (first + second) = Network.charge first + Network.charge second := by
  rw [Network.charge, Multiset.map_add, Multiset.sum_add]
  rfl

theorem Network.charge_node (node : Node) (batch : List Packet) :
    Network.charge (Multiset.ofList (batch.map fun packet => (node, packet))) =
      ((Multiset.ofList batch).map fun packet => (ttl packet).toNat).sum + batch.length := by
  induction batch with
  | nil => rfl
  | cons packet rest ih =>
    simp only [Network.charge, List.map_cons, Multiset.map_coe, Multiset.sum_coe, List.sum_cons,
      List.length_cons, Router.charge] at ih ⊢
    omega

def Forwarded (packet : Packet) (item : Node × Packet) : Prop := charge item.2 = (ttl packet).toNat

theorem forwarded_of_routed {routing : RoutingTable Trie} {node : Node} {packet : Packet}
    {item : Node × Packet}
    (sent : (routePacket routing (topology.inputTx node) packet).bind (topology.toPeer node) =
      some item) :
    Forwarded packet item := by
  obtain ⟨delivery, routed, peer⟩ := Option.bind_eq_some_iff.mp sent
  unfold Topology.toPeer at peer
  split at peer
  next => cases peer
  next remote =>
    obtain ⟨node, _, rfl⟩ := Option.map_eq_some_iff.mp peer
    rcases routed_cases routed with ⟨isLocal, _⟩ | ⟨_, lower⟩
    · exact absurd isLocal remote
    · exact lower

theorem filterMap_le {placed deliveries : List (Sender × Packet)} (part : placed.Subperm deliveries)
    (image : Sender × Packet → Option (Node × Packet)) :
    Multiset.ofList (placed.filterMap image) ≤ Multiset.ofList (deliveries.filterMap image) := by
  have le := Multiset.filterMap_le_filterMap image (Multiset.coe_le.mpr part)
  simpa only [Multiset.filterMap_coe] using le

theorem charge_ingress {routing : RoutingTable Trie} {node : Node} {batch : List Packet}
    {placed : List (Sender × Packet)}
    (part : placed.Subperm (batch.filterMap (routePacket routing (topology.inputTx node)))) :
    Network.charge (Multiset.ofList (placed.filterMap (topology.toPeer node))) + batch.length ≤
      Network.charge (Multiset.ofList (batch.map fun packet => (node, packet))) := by
  have own : Descends Eq (Multiset.ofList batch) (Multiset.ofList batch) := .self (fun _ => rfl) _
  have routed : Descends Forwarded (Multiset.ofList batch)
      ((Multiset.ofList batch).filterMap fun packet =>
      (routePacket routing (topology.inputTx node) packet).bind (topology.toPeer node)) :=
    own.filterMap fun source packet item same sent => same ▸ forwarded_of_routed topology sent
  rw [Multiset.filterMap_coe, ← List.filterMap_filterMap] at routed
  have descends := routed.of_le (filterMap_le part (topology.toPeer node))
  have lighter := descends.sum_le (fun packet => (ttl packet).toNat)
    (fun item => charge item.2) fun _ _ lower => lower.le
  rw [Network.charge_node]
  exact Nat.add_le_add_right lighter _

theorem charge_output {node : Node} {tx : Sender} {batch : List Packet}
    {placed : List (Sender × Packet)}
    (part : placed.Subperm (batch.map fun packet => (tx, packet))) :
    Network.charge (Multiset.ofList (placed.filterMap (topology.toPeer node))) ≤
      (batch.map charge).sum := by
  have own : Descends Eq (Multiset.ofList batch) (Multiset.ofList batch) := .self (fun _ => rfl) _
  have sent : Descends (fun packet (item : Node × Packet) => item.2 = packet)
      (Multiset.ofList batch)
      ((Multiset.ofList batch).filterMap fun packet => topology.toPeer node (tx, packet)) := by
    apply own.filterMap
    intro source packet item same sent
    unfold Topology.toPeer at sent
    split at sent
    next => cases sent
    next =>
      obtain ⟨peer, _, rfl⟩ := Option.map_eq_some_iff.mp sent
      exact same.symm
  have images := filterMap_le part (topology.toPeer node)
  rw [List.filterMap_map] at images
  rw [Multiset.filterMap_coe] at sent
  have lighter := (sent.of_le images).sum_le charge (fun item => charge item.2) fun _ _ same => by
    rw [same]
  simpa [Network.charge] using lighter

theorem charge_turn {routing : RoutingTable Trie} {node : Node} {input : RouterInput Trie}
    {placed : List (Sender × Packet)}
    (part : placed.Subperm (routeInput (topology.inputTx node) routing input)) :
    (NetworkAction.turn node input).arrived +
        Network.charge (Multiset.ofList (placed.filterMap (topology.toPeer node))) ≤
      Network.charge (Network.arriving node input) + ((NetworkAction.turn node input).injected.map
        charge).sum := by
  have silent (part : placed.Subperm []) :
      Network.charge (Multiset.ofList (placed.filterMap (topology.toPeer node))) = 0 := by
    rw [List.subperm_nil.mp part]
    rfl
  cases input with
  | output batch =>
    cases batch with
    | none => exact (Nat.zero_add _).trans_le ((silent part).trans_le (Nat.zero_le _))
    | some batch =>
      have cost : Network.charge (Multiset.ofList (placed.filterMap (topology.toPeer node))) ≤
          (batch.map charge).sum := by
        rcases routeInput_output (topology.inputTx node) routing batch with dropped | ⟨tx, sent⟩
        · rw [dropped] at part
          exact (silent part).trans_le (Nat.zero_le _)
        · rw [sent] at part
          exact charge_output topology part
      simpa [NetworkAction.arrived, NetworkAction.injected, Network.arriving,
        Network.charge] using cost
  | ingress batch =>
    cases batch with
    | none => exact (Nat.zero_add _).trans_le ((silent part).trans_le (Nat.zero_le _))
    | some batch =>
      have cost := charge_ingress topology part
      simp only [NetworkAction.arrived, NetworkAction.injected, Network.arriving, List.map_nil,
        List.sum_nil]
      omega
  | _ => exact (Nat.zero_add _).trans_le ((silent part).trans_le (Nat.zero_le _))

end Charge

/-! ## One step of a network -/

section Step

variable [DecidableEq Node] (topology : Topology Node) (accepts : Node → Nat → Sender → Bool)

theorem turn_cases {network after : Network Node Trie} {node : Node} {input : RouterInput Trie}
    (taken : Network.step topology accepts (.turn node input) network = some after) :
    ∃ (rest : Multiset (Node × Packet)) (placed : List (Sender × Packet)),
      network.transit = Network.arriving node input + rest ∧
      placed.Subperm (routeInput (topology.inputTx node) (network.actors node).routing input) ∧
      after.transit = rest + Multiset.ofList (placed.filterMap (topology.toPeer node)) ∧
      after.received = network.received + Multiset.ofList
        (placed.filterMap (topology.toTun node)) := by
  simp only [Network.step] at taken
  split at taken
  next present =>
    obtain ⟨actor, moved, rfl⟩ := Option.map_eq_some_iff.mp taken
    have turned := turn_of_step (topology.inputTx node) (accepts node) moved
    obtain ⟨placed, delivered, part⟩ := placed_turn (topology.inputTx node) (accepts node)
      (network.actors node) input
    refine ⟨network.transit - Network.arriving node input, placed,
      (add_tsub_cancel_of_le present).symm, part, ?_, ?_⟩
    · simp only [turned, delivered, List.drop_left]
    · simp only [turned, delivered, List.drop_left]
  next => cases taken

theorem charge_step {network after : Network Node Trie} {action : NetworkAction Node Trie}
    (taken : Network.step topology accepts action network = some after) :
    action.arrived + Network.charge after.transit ≤
      Network.charge network.transit + (action.injected.map charge).sum := by
  cases action with
  | turn node input =>
    obtain ⟨rest, placed, transit, part, moved, _⟩ := turn_cases topology accepts taken
    have cost := charge_turn topology part
    rw [transit, moved, Network.charge_add, Network.charge_add]
    omega
  | lose node packet =>
    cases taken
    obtain ⟨lost, split⟩ := Multiset.le_iff_exists_add.mp
      (Multiset.erase_le (node, packet) network.transit)
    have cost := congrArg Network.charge split
    rw [Network.charge_add] at cost
    simp only [NetworkAction.arrived, NetworkAction.injected, List.map_nil, List.sum_nil]
    omega

theorem charge_run {network last : Network Node Trie} {actions : List (NetworkAction Node Trie)}
    (executed : run (Network.step topology accepts) actions network = some last) :
    (actions.map NetworkAction.arrived).sum + Network.charge last.transit ≤
      Network.charge network.transit + ((actions.flatMap NetworkAction.injected).map
        charge).sum := by
  induction actions generalizing network with
  | nil =>
    cases executed
    simp
  | cons action rest ih =>
    obtain ⟨next, taken, remaining⟩ := Option.bind_eq_some_iff.mp executed
    have now := charge_step topology accepts taken
    have later := ih remaining
    simp only [List.map_cons, List.sum_cons, List.flatMap_cons, List.map_append, List.sum_append]
    omega

/-- However the tables route, even in circles, routers take packets from their peers no more often
than the injected TTLs allow, so that forwarding ends once nothing is injected. -/
theorem forwarding_bounded (tables : Node → RoutingTable Trie)
    {actions : List (NetworkAction Node Trie)} {last : Network Node Trie}
    (executed : run (Network.step topology accepts) actions (.spawn tables) = some last) :
    (actions.map NetworkAction.arrived).sum + (last.transit.map fun item =>
      (ttl item.2).toNat + 1).sum ≤
      ((actions.flatMap NetworkAction.injected).map fun packet => (ttl packet).toNat + 1).sum := by
  have bounded := charge_run topology accepts executed
  have nothing : Network.charge (Network.spawn tables).transit = 0 := rfl
  rw [nothing, Nat.zero_add] at bounded
  exact bounded

end Step

def sampleTopology : Topology Bool := ⟨fun _ => ⟨0⟩, fun node _ => some !node⟩

def sampleActions : List (NetworkAction Bool AssocTrie) :=
  [.turn true (.output (some [sampleHeader])), .turn false (.ingress (some [sampleHeader]))]

theorem run_sampleActions :
    ∃ last, run (Network.step sampleTopology fun _ _ _ => true) sampleActions
    (.spawn fun _ => sampleTable) = some last :=
  Option.isSome_iff_exists.mp (by decide +kernel)

theorem forwarding_bounded_sample :
    ∃ last, run (Network.step sampleTopology fun _ _ _ => true) sampleActions
      (.spawn fun _ => sampleTable) = some last ∧
    1 + (last.transit.map fun item => (ttl item.2).toNat + 1).sum ≤ 65 := by
  obtain ⟨last, executed⟩ := run_sampleActions
  have bounded := forwarding_bounded sampleTopology (fun _ _ _ => true)
    (fun _ => sampleTable) executed
  exact ⟨last, executed, bounded⟩

/-! ## Where packets come from -/

section Provenance

variable [DecidableEq Node] (topology : Topology Node) (accepts : Node → Nat → Sender → Bool)

def Network.packets (network : Network Node Trie) : Multiset Packet :=
  (network.transit + network.received).map Prod.snd

omit [DecidableEq Node] in
theorem carried_le (node : Node) (placed : List (Sender × Packet)) :
    ((Multiset.ofList (placed.filterMap (topology.toPeer node)) +
        Multiset.ofList (placed.filterMap (topology.toTun node))).map Prod.snd) ≤
      Multiset.ofList (placed.map Prod.snd) := by
  induction placed with
  | nil => exact le_rfl
  | cons delivery rest ih =>
    have skip : (Multiset.ofList (rest.map Prod.snd)) ≤
        Multiset.ofList ((delivery :: rest).map Prod.snd) :=
      Multiset.le_cons_self _ _
    by_cases isLocal : delivery.1 = topology.inputTx node
    · have peer : topology.toPeer node delivery = none := if_pos isLocal
      have tun : topology.toTun node delivery = some (node, delivery.2) := if_pos isLocal
      rw [List.filterMap_cons_none peer, List.filterMap_cons_some tun, ← Multiset.cons_coe,
        Multiset.add_cons, Multiset.map_cons]
      exact Multiset.cons_le_cons _ ih
    · have tun : topology.toTun node delivery = none := if_neg isLocal
      have toPeer : topology.toPeer node delivery = (topology.link node delivery.1).map fun peer =>
          (peer, delivery.2) :=
        if_neg isLocal
      rw [List.filterMap_cons_none tun]
      cases found : topology.link node delivery.1 with
      | none =>
        rw [found] at toPeer
        rw [List.filterMap_cons_none toPeer]
        exact ih.trans skip
      | some peer =>
        rw [found] at toPeer
        rw [List.filterMap_cons_some toPeer, ← Multiset.cons_coe, Multiset.cons_add,
          Multiset.map_cons]
        exact Multiset.cons_le_cons _ ih

omit [DecidableEq Node] in
theorem descends_turn (routing : RoutingTable Trie) {node : Node} {input : RouterInput Trie}
    {origins : Multiset Packet}
    (descends : Descends Travelled origins ((Network.arriving node input).map Prod.snd)) :
    Descends Travelled (origins + Multiset.ofList (NetworkAction.turn node input).injected)
      (Multiset.ofList ((routeInput (topology.inputTx node) routing input).map Prod.snd)) := by
  cases input with
  | output batch =>
    cases batch with
    | none => exact .zero
    | some batch =>
      have own : Descends Travelled (Multiset.ofList batch) (Multiset.ofList batch) :=
        .self Travelled.refl _
      rcases routeInput_output (topology.inputTx node) routing batch with dropped | ⟨tx, sent⟩
      · rw [dropped]
        exact .zero
      · have same : batch.map (Prod.snd ∘ fun packet => (tx, packet)) = batch := List.map_id batch
        rw [sent, List.map_map, same]
        exact own.mono (Multiset.le_add_left _ _)
  | ingress batch =>
    cases batch with
    | none => exact .zero
    | some batch =>
      simp only [Network.arriving, Multiset.map_coe, List.map_map] at descends
      have same : batch.map (Prod.snd ∘ fun packet => (node, packet)) = batch := List.map_id batch
      rw [same] at descends
      have routed : Descends Travelled origins ((Multiset.ofList batch).filterMap fun packet =>
          (routePacket routing (topology.inputTx node) packet).map Prod.snd) := by
        apply descends.filterMap
        intro origin packet result travelled sent
        obtain ⟨delivery, found, rfl⟩ := Option.map_eq_some_iff.mp sent
        exact travelled.routed found
      rw [Multiset.filterMap_coe, ← List.map_filterMap] at routed
      exact routed.mono (Multiset.le_add_right _ _)
  | _ => exact .zero

theorem descends_step {network after : Network Node Trie} {action : NetworkAction Node Trie}
    {origins : Multiset Packet} (descends : Descends Travelled origins network.packets)
    (taken : Network.step topology accepts action network = some after) :
    Descends Travelled (origins + Multiset.ofList action.injected) after.packets := by
  cases action with
  | turn node input =>
    obtain ⟨rest, placed, transit, part, moved, received⟩ := turn_cases topology accepts taken
    have before : network.packets =
        (Network.arriving node input).map Prod.snd + (rest + network.received).map Prod.snd := by
      rw [Network.packets, transit, add_assoc, Multiset.map_add]
    rw [before] at descends
    obtain ⟨used, others, within, arriving, staying⟩ := descends.split
    have routed := descends_turn topology (network.actors node).routing arriving
    have carried : Multiset.ofList (placed.map Prod.snd) ≤
        Multiset.ofList
          ((routeInput (topology.inputTx node) (network.actors node).routing input).map
            Prod.snd) := by
      have le := Multiset.map_le_map (f := Prod.snd) (Multiset.coe_le.mpr part)
      simpa only [Multiset.map_coe] using le
    have sent := (routed.of_le carried).of_le (carried_le topology node placed)
    have after : after.packets = (rest + network.received).map Prod.snd +
        (Multiset.ofList (placed.filterMap (topology.toPeer node)) +
          Multiset.ofList (placed.filterMap (topology.toTun node))).map Prod.snd := by
      rw [Network.packets, moved, received, ← Multiset.map_add, add_add_add_comm]
    rw [after]
    refine (staying.add sent).mono ?_
    rw [← add_assoc, add_comm others used]
    exact add_le_add_left within _
  | lose node packet =>
    cases taken
    have fewer : Network.packets { network with transit := network.transit.erase (node, packet) } ≤
        network.packets :=
      Multiset.map_le_map (add_le_add_left (Multiset.erase_le _ _) _)
    exact (descends.of_le fewer).mono (Multiset.le_add_right _ _)

theorem descends_run {network last : Network Node Trie} {actions : List (NetworkAction Node Trie)}
    {origins : Multiset Packet} (descends : Descends Travelled origins network.packets)
    (executed : run (Network.step topology accepts) actions network = some last) :
    Descends Travelled (origins + Multiset.ofList (actions.flatMap NetworkAction.injected))
      last.packets := by
  induction actions generalizing network origins with
  | nil =>
    cases executed
    exact descends.mono (Multiset.le_add_right _ _)
  | cons action rest ih =>
    obtain ⟨next, taken, remaining⟩ := Option.bind_eq_some_iff.mp executed
    have later := ih (descends_step topology accepts descends taken) remaining
    rwa [add_assoc, Multiset.coe_add, ← List.flatMap_cons] at later

/-- Every packet of a network is one that a TUN device has injected, after as many hops as its TTL
allows or fewer, and no two of them are the same one. Hops keep its destination, a valid header
and all bytes but those of the TTL and the checksum. -/
theorem forwarding_provenance (tables : Node → RoutingTable Trie)
    {actions : List (NetworkAction Node Trie)} {last : Network Node Trie}
    (executed : run (Network.step topology accepts) actions (.spawn tables) = some last) :
    (∃ origins ≤ Multiset.ofList (actions.flatMap NetworkAction.injected),
      Multiset.Rel Travelled origins ((last.transit + last.received).map Prod.snd)) ∧
    ∀ item ∈ last.transit + last.received, ∃ origin ∈ actions.flatMap NetworkAction.injected,
      extractDstIp item.2 = extractDstIp origin ∧ SameOutside (rewritten origin) origin item.2 ∧
      (ValidIpv4 origin → ValidIpv4 item.2) := by
  have empty : Descends Travelled 0 (Network.spawn tables).packets := .zero
  have descends := descends_run topology accepts empty executed
  rw [zero_add] at descends
  refine ⟨descends, fun item member => ?_⟩
  obtain ⟨origin, injected, count, within, reached⟩ :=
    descends.exists_mem (Multiset.mem_map_of_mem Prod.snd member)
  refine ⟨origin, injected, ?_, ?_, fun valid => ?_⟩
  · rw [reached, extractDstIp_hops]
  · rw [reached]
    exact sameOutside_hops origin count
  · have ttl_eq : ttl origin = origin.getD 8 0 := if_pos valid.four
    rw [ttl_eq] at within
    rw [reached]
    exact (valid.hops count within).1

end Provenance

theorem forwarding_provenance_sample :
    ∃ last, run (Network.step sampleTopology fun _ _ _ => true) sampleActions
      (.spawn fun _ => sampleTable) = some last ∧
    ∃ origins ≤ ([sampleHeader] : Multiset Packet),
      Multiset.Rel Travelled origins ((last.transit + last.received).map Prod.snd) := by
  obtain ⟨last, executed⟩ := run_sampleActions
  have provenance := forwarding_provenance sampleTopology (fun _ _ _ => true)
    (fun _ => sampleTable) executed
  exact ⟨last, executed, provenance.1⟩

end H3llo.Router
