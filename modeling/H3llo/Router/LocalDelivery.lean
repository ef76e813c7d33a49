import H3llo.Config.Validate
import H3llo.Router.Ingress

/-! Delivery of packets for this node's own addresses.

The host routes of the local addresses are inserted after the prefixes of the peers,
and a refused one is only logged. A peer that lists exactly such a host keeps it.
-/

set_option autoImplicit false

namespace H3llo.Router
open H3llo.Net H3llo.Config

variable {Trie : Type → Type} [PrefixTrie Trie]

/-! ## Sends, whichever channels are open -/

/-- The second state has sent more than the first, and only what is allowed. -/
def Sends (allowed : Sender × Packet → Prop) (before after : DataPlane) : Prop :=
  ∃ deliveries, after.delivered = before.delivered ++ deliveries ∧ ∀ delivery ∈ deliveries,
    allowed delivery

namespace Sends

variable {allowed : Sender × Packet → Prop} (accepts : Nat → Sender → Bool)

theorem of_eq {before after : DataPlane} (same : after.delivered = before.delivered) :
    Sends allowed before after :=
  ⟨[], by simpa using same, by simp⟩

theorem trans {first second third : DataPlane} (left : Sends allowed first second)
    (right : Sends allowed second third) : Sends allowed first third := by
  obtain ⟨early, earlySent, earlyAllowed⟩ := left
  obtain ⟨late, lateSent, lateAllowed⟩ := right
  refine ⟨early ++ late, by rw [lateSent, earlySent, List.append_assoc], fun delivery sent => ?_⟩
  rcases List.mem_append.mp sent with sent | sent
  · exact earlyAllowed delivery sent
  · exact lateAllowed delivery sent

theorem mono {weaker : Sender × Packet → Prop}
    (implies : ∀ delivery, allowed delivery → weaker delivery) {before after : DataPlane}
    (sends : Sends allowed before after) : Sends weaker before after := by
  obtain ⟨deliveries, sent, all⟩ := sends
  exact ⟨deliveries, sent, fun delivery member => implies delivery (all delivery member)⟩

theorem sendWithBackpressure (plane : DataPlane) {tx : Sender} {batch : List Packet}
    (all : ∀ packet ∈ batch, allowed (tx, packet)) :
    Sends allowed plane (plane.sendWithBackpressure accepts tx batch).2 := by
  cases isOpen : accepts plane.outlet.attempts tx with
  | true =>
    refine ⟨batch.map fun packet => (tx, packet), ?_, fun delivery sent => ?_⟩
    · simp [DataPlane.sendWithBackpressure, Outlet.send, isOpen, DataPlane.delivered]
    · obtain ⟨packet, member, rfl⟩ := List.mem_map.mp sent
      exact all packet member
  | false =>
    exact of_eq (by simp [DataPlane.sendWithBackpressure, Outlet.send, isOpen, DataPlane.delivered])

theorem sendAndRecord (plane : DataPlane) {tx : Sender} {batch : List Packet} (count bytes : Nat)
    (all : ∀ packet ∈ batch, allowed (tx, packet)) :
    Sends allowed plane (plane.sendAndRecord accepts tx batch count bytes).2 := by
  have sends := sendWithBackpressure accepts plane all
  unfold DataPlane.sendAndRecord
  simp only
  split <;> exact sends.trans (of_eq rfl)

theorem sendForward (plane : DataPlane) {tx : Sender} {forward : List Packet}
    (all : ∀ packet ∈ forward, allowed (tx, packet)) :
    Sends allowed plane (sendForward accepts tx plane forward) := by
  unfold Router.sendForward
  split
  · exact of_eq rfl
  · exact sendAndRecord accepts plane _ _ all

theorem sendExpired (plane : DataPlane) {inputTx : Sender} {expired : List Packet}
    (all : ∀ packet ∈ expired, allowed (inputTx, packet)) :
    Sends allowed plane (sendExpired accepts inputTx plane expired) := by
  unfold Router.sendExpired
  split
  · exact of_eq rfl
  · have recorded : Sends allowed plane
        (plane.recordDrop .ttlExpired (batchStats expired).1 (batchStats expired).2) := of_eq rfl
    have sends := recorded.trans (sendWithBackpressure accepts _ all)
    simp only
    split <;> exact sends.trans (of_eq rfl)

theorem handleGroup (table : RoutingTable Trie) (inputTx : Sender) (plane : DataPlane)
    {dst : IpAddr} {group : List Packet}
    (shared : ∀ packet ∈ group, extractDstIp packet = some dst) :
    Sends (fun delivery => ∃ packet ∈ group, routePacket table inputTx packet = some delivery) plane
      (handleGroup table inputTx accepts plane dst group) := by
  unfold Router.handleGroup
  cases found : table.lookup dst with
  | none => exact of_eq rfl
  | some route =>
    by_cases isLocal : route.tx = inputTx
    · simp only [isLocal, if_true]
      refine sendAndRecord accepts plane _ _ fun packet member => ⟨packet, member, ?_⟩
      simp [routePacket, shared packet member, found, isLocal]
    · simp only [isLocal, if_false, partitionTtl_eq (wellFormed_of_shared shared)]
      refine (sendForward accepts _ ?_).trans (sendExpired accepts _ ?_)
      · intro sent member
        obtain ⟨packet, kept, rfl⟩ := List.mem_map.mp member
        obtain ⟨member, alive⟩ := List.mem_filter.mp kept
        have alive : 2 ≤ (ttl packet).toNat := by simpa [survivesHop] using alive
        exact ⟨packet, member, by simp [routePacket, shared packet member, found, isLocal, alive]⟩
      · intro sent member
        obtain ⟨packet, kept, rfl⟩ := List.mem_map.mp member
        obtain ⟨member, expired⟩ := List.mem_filter.mp kept
        have expired : ¬ 2 ≤ (ttl packet).toNat := by simpa [survivesHop] using expired
        exact ⟨packet, member, by simp [routePacket, shared packet member, found, isLocal, expired]⟩

theorem handleIngressBatch (table : RoutingTable Trie) (inputTx : Sender) (plane : DataPlane)
    (batch : List Packet) :
    Sends (fun delivery => ∃ packet ∈ batch, routePacket table inputTx packet = some delivery) plane
      (handleIngressBatch table inputTx accepts plane batch) := by
  fun_induction Router.handleIngressBatch table inputTx accepts plane batch with
  | case1 plane => exact of_eq rfl
  | case2 plane first rest malformed ih =>
    refine (of_eq rfl).trans (ih.mono fun delivery routed => ?_)
    obtain ⟨packet, member, routed⟩ := routed
    exact ⟨packet, List.mem_cons_of_mem first member, routed⟩
  | case3 plane first rest dst found group remaining ih =>
    have whole : first :: rest = group ++ remaining := group_append first rest dst
    have now := handleGroup accepts table inputTx plane (group_shared rest found)
    refine (now.mono fun delivery routed => ?_).trans (ih.mono fun delivery routed => ?_)
    · obtain ⟨packet, member, routed⟩ := routed
      exact ⟨packet, by rw [whole]; exact List.mem_append_left remaining member, routed⟩
    · obtain ⟨packet, member, routed⟩ := routed
      exact ⟨packet, by rw [whole]; exact List.mem_append_right group member, routed⟩

end Sends

/-! ## Lookup of a local address -/

namespace RoutingInput

theorem longest_of_host {input : RoutingInput} {net : IpNet} {addr : IpAddr} {entry : RouteEntry}
    (route : input.IsRoute net entry) (same : net.Same (.host addr)) :
    input.Longest addr net entry := by
  have inside : net.Contains addr := same.symm.contains (rfl : (IpNet.host addr).Contains addr)
  refine ⟨route, inside, fun other otherEntry _ otherInside => ?_⟩
  rw [same.1]
  exact (IpNet.covers_host.mpr otherInside).1

variable {input : RoutingInput} {table : RoutingTable Trie}

theorem lookup_claimed (made : input.make Trie = .ok table) {addr : IpAddr} {peer : Peer}
    (member : peer ∈ input.peers) {tx : Sender}
    (connected : input.peerTxs.lookup peer.id = some tx) {net : IpNet}
    (listed : net ∈ peer.tun.allowedIps) (same : net.Same (.host addr)) :
    ∃ found, table.lookup addr = some found ∧ found.tx = tx := by
  have route : input.IsRoute net ⟨peer.id, tx⟩ := .inl ⟨peer, member, listed, rfl, connected⟩
  obtain ⟨found, matched, _, entry⟩ := lookup_of_longest made (longest_of_host route same)
  exact ⟨found, matched, congrArg RouteEntry.tx entry⟩

theorem lookup_unclaimed (made : input.make Trie = .ok table) {addr : IpNet}
    (isLocal : addr ∈ input.localTun.addrs)
    (free : ∀ peer ∈ input.peers, (input.peerTxs.lookup peer.id).isSome →
      ∀ net ∈ peer.tun.allowedIps, ¬ net.Same (.host addr.addr)) :
    ∃ found, table.lookup addr.addr = some found ∧ found.tx = input.inputTx := by
  have route : input.IsRoute (.host addr.addr) ⟨localPeerId, input.inputTx⟩ :=
    .inr ⟨⟨addr, isLocal, rfl⟩, rfl, free⟩
  obtain ⟨found, matched, _, entry⟩ := lookup_of_longest made (longest_of_host route (.refl _))
  exact ⟨found, matched, congrArg RouteEntry.tx entry⟩

/-- No peer with a channel of its own lists the host of a local address. -/
def LocalHostsFree (input : RoutingInput) : Prop :=
  ∀ addr ∈ input.localTun.addrs, ∀ peer ∈ input.peers, ∀ tx,
    input.peerTxs.lookup peer.id = some tx →
    tx ≠ input.inputTx → ∀ net ∈ peer.tun.allowedIps, ¬ net.Same (.host addr.addr)

theorem lookup_local_iff (made : input.make Trie = .ok table) :
    (∀ addr ∈ input.localTun.addrs, ∃ found, table.lookup addr.addr = some found ∧
      found.tx = input.inputTx) ↔
      input.LocalHostsFree := by
  constructor
  · intro delivered addr isLocal peer member tx connected remote net listed same
    obtain ⟨found, matched, foundLocal⟩ := delivered addr isLocal
    obtain ⟨claimed, claimedMatched, claimedTx⟩ := lookup_claimed made member connected listed same
    rw [matched, Option.some.injEq] at claimedMatched
    subst claimedMatched
    exact remote (claimedTx.symm.trans foundLocal)
  · intro free addr isLocal
    by_cases claimed : ∃ peer ∈ input.peers, (input.peerTxs.lookup peer.id).isSome ∧
        ∃ net ∈ peer.tun.allowedIps, net.Same (.host addr.addr)
    · obtain ⟨peer, member, connected, net, listed, same⟩ := claimed
      obtain ⟨tx, connected⟩ := Option.isSome_iff_exists.mp connected
      obtain ⟨found, matched, foundTx⟩ := lookup_claimed made member connected listed same
      -- whoever lists the host shares the channel to the TUN
      have shared : tx = input.inputTx := by
        by_contra remote
        exact free addr isLocal peer member tx connected remote net listed same
      exact ⟨found, matched, foundTx.trans shared⟩
    · refine lookup_unclaimed made isLocal fun peer member connected net listed same => claimed ?_
      exact ⟨peer, member, connected, net, listed, same⟩

end RoutingInput

/-! ## Packets for a local address -/

theorem routePacket_local {table : RoutingTable Trie} {inputTx : Sender} {addr : IpAddr}
    {found : RouteMatch} (matched : table.lookup addr = some found) (isLocal : found.tx = inputTx)
    {packet : Packet} (dst : extractDstIp packet = some addr) :
    routePacket table inputTx packet = some (inputTx, packet) := by
  simp [routePacket, dst, matched, isLocal]

theorem sends_local {table : RoutingTable Trie} {inputTx : Sender} {addr : IpAddr}
    {found : RouteMatch} (matched : table.lookup addr = some found) (isLocal : found.tx = inputTx)
    (accepts : Nat → Sender → Bool) (plane : DataPlane) (batch : List Packet) :
    Sends (fun delivery => extractDstIp delivery.2 = some addr → delivery.1 = inputTx ∧
      delivery.2 ∈ batch) plane
      (handleIngressBatch table inputTx accepts plane batch) := by
  refine (Sends.handleIngressBatch accepts table inputTx plane batch).mono ?_
  rintro delivery ⟨packet, member, routed⟩ dst
  rw [extractDstIp_routePacket routed] at dst
  rw [routePacket_local matched isLocal dst, Option.some.injEq] at routed
  subst routed
  exact ⟨rfl, member⟩

theorem delivered_local {table : RoutingTable Trie} {inputTx : Sender} {addr : IpAddr}
    {found : RouteMatch} (matched : table.lookup addr = some found) (isLocal : found.tx = inputTx)
    {accepts : Nat → Sender → Bool} (isOpen : ∀ attempt tx, accepts attempt tx = true)
    (plane : DataPlane) (batch : List Packet) :
    ∃ deliveries, (handleIngressBatch table inputTx accepts plane batch).delivered =
      plane.delivered ++ deliveries ∧
      (deliveries.filter fun delivery => delivery.1 = inputTx ∧
        extractDstIp delivery.2 = some addr) =
        (batch.filter fun packet => extractDstIp packet = some addr).map fun packet =>
          (inputTx, packet) := by
  obtain ⟨deliveries, sent, same⟩ := delivered_handleIngressBatch isOpen table inputTx plane batch
  refine ⟨deliveries, sent, ?_⟩
  have streams := same (inputTx, some addr)
  simp only [streamKey, Prod.mk.injEq] at streams
  rw [streams]
  clear sent same streams
  induction batch with
  | nil => rfl
  | cons packet rest ih =>
    by_cases dst : extractDstIp packet = some addr
    · have routed := routePacket_local matched isLocal dst
      simpa [List.filterMap_cons, routed, dst] using ih
    · cases routed : routePacket table inputTx packet with
      | none => simpa [List.filterMap_cons, routed, dst] using ih
      | some delivery =>
        have kept := extractDstIp_routePacket routed
        simpa [List.filterMap_cons, routed, dst, kept] using ih

/-- In an accepted configuration there are local addresses, and all of them are delivered
locally exactly if no connected peer lists the host of one: each is looked up with
the channel to the TUN, and a batch sends its packets there, unmodified, and nowhere else. -/
theorem local_delivery_iff {config : Config} (accepted : config.validate = .ok ())
    (peerTxs : HashMap String Sender) (inputTx : Sender) {table : RoutingTable Trie}
    (made : RoutingTable.make config.peers peerTxs config.node.tun inputTx = .ok table) :
    config.node.tun.addrs ≠ [] ∧
    ((∀ addr ∈ config.node.tun.addrs,
      (∃ found, table.lookup addr.addr = some found ∧ found.tx = inputTx) ∧
      (∀ accepts plane batch,
        Sends (fun delivery => extractDstIp delivery.2 = some addr.addr → delivery.1 = inputTx ∧
          delivery.2 ∈ batch) plane
          (handleIngressBatch table inputTx accepts plane batch)) ∧
      ∀ accepts plane batch, (∀ attempt tx, accepts attempt tx = true) →
        ∃ deliveries, (handleIngressBatch table inputTx accepts plane batch).delivered =
          plane.delivered ++ deliveries ∧
          (deliveries.filter fun delivery => delivery.1 = inputTx ∧
            extractDstIp delivery.2 = some addr.addr) =
            (batch.filter fun packet => extractDstIp packet = some addr.addr).map fun packet =>
              (inputTx, packet)) ↔
    RoutingInput.LocalHostsFree ⟨config.peers, peerTxs, config.node.tun, inputTx⟩) := by
  have input : RoutingInput.make Trie ⟨config.peers, peerTxs, config.node.tun, inputTx⟩ =
      .ok table := made
  refine ⟨(validate_ok_iff.mp accepted).2.1.addrs, ?_⟩
  rw [← RoutingInput.lookup_local_iff input]
  constructor
  · exact fun delivered addr isLocal => (delivered addr isLocal).1
  · intro lookups addr isLocal
    obtain ⟨found, matched, foundLocal⟩ := lookups addr isLocal
    exact ⟨⟨found, matched, foundLocal⟩, fun accepts => sends_local matched foundLocal accepts,
      fun accepts plane batch isOpen => delivered_local matched foundLocal isOpen plane batch⟩

def nodeWithPeer (nets : List IpNet) : Config :=
  ⟨⟨none, ⟨[.ofV4 0x0a000001#32 24]⟩⟩, .default, [RoutingInput.samplePeer "peer" nets]⟩

def nodeInSubnet : Config := nodeWithPeer [.ofV4 0x0a000000#32 24]

theorem local_delivery_subnet :
    ∃ table : RoutingTable AssocTrie,
      RoutingTable.make nodeInSubnet.peers (Finmap.insert "peer" ⟨1⟩ ∅) nodeInSubnet.node.tun ⟨0⟩ =
        .ok table ∧
      ∃ found, table.lookup (.v4 0x0a000001#32) = some found ∧ found.tx = ⟨0⟩ := by
  obtain ⟨table, made⟩ : ∃ table : RoutingTable AssocTrie,
      RoutingTable.make nodeInSubnet.peers (Finmap.insert "peer" ⟨1⟩ ∅) nodeInSubnet.node.tun ⟨0⟩ =
        .ok table := ⟨_, rfl⟩
  have accepted : nodeInSubnet.validate = .ok () := by decide +kernel
  have free : RoutingInput.LocalHostsFree
      ⟨nodeInSubnet.peers, Finmap.insert "peer" ⟨1⟩ ∅, nodeInSubnet.node.tun, ⟨0⟩⟩ := by
    intro addr isLocal peer member tx _ _ net listed
    obtain rfl := List.mem_singleton.mp isLocal
    obtain rfl := List.mem_singleton.mp member
    obtain rfl := List.mem_singleton.mp listed
    decide
  obtain ⟨_, delivered⟩ := local_delivery_iff accepted _ _ made
  exact ⟨table, made, (delivered.mpr free _ (List.mem_singleton_self _)).1⟩

theorem local_delivery_stolen :
    (nodeWithPeer [.host (.v4 0x0a000001#32)]).validate = .ok () ∧
      ((RoutingTable.make (nodeWithPeer [.host (.v4 0x0a000001#32)]).peers
        (Finmap.insert "peer" ⟨1⟩ ∅)
        (nodeWithPeer [.host (.v4 0x0a000001#32)]).node.tun ⟨0⟩ : Except RoutingError
          (RoutingTable AssocTrie)).toOption.bind
          fun table => table.lookup (.v4 0x0a000001#32)) =
        some ⟨.host (.v4 0x0a000001#32), "peer", ⟨1⟩⟩ := by
  decide +kernel

end H3llo.Router
