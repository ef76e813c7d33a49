import H3llo.Router.Packet
import H3llo.Router.Table

/-! Ingress batches: consecutive groups of one destination, routed as a whole.

The loop drains one group at a time from the front of the batch. Per packet it
does what `routePacket` says, and it keeps the order of each destination on each
channel.
-/

set_option autoImplicit false

namespace H3llo.Router
open H3llo.Net

variable {Trie : Type → Type} [PrefixTrie Trie]

/-- A group after TTL handling; `refused` has the packets whose TTL could not be read. -/
structure TtlPartition where
  forward : List Packet
  expired : List Packet
  refused : List Packet

def partitionTtl : List Packet → TtlPartition
  | [] => ⟨[], [], []⟩
  | packet :: rest =>
      let parts := partitionTtl rest
      match decrementTtl packet with
      | (some oldTtl, packet) =>
          -- A packet that came with TTL 0 or 1 goes to the TUN, which answers with ICMP.
          if oldTtl = 0 ∨ oldTtl = 1 then { parts with expired := packet :: parts.expired }
          else { parts with forward := packet :: parts.forward }
      | (none, packet) => { parts with refused := packet :: parts.refused }

def recordRefused (plane : DataPlane) (refused : List Packet) : DataPlane :=
  refused.foldl (fun plane packet => plane.recordDrop .invalidIpVersion 1 packet.length) plane

def sendForward (accepts : Nat → Sender → Bool) (tx : Sender) (plane : DataPlane)
    (forward : List Packet) : DataPlane :=
  if forward.isEmpty then plane
  else
    let (count, bytes) := batchStats forward
    (plane.sendAndRecord accepts tx forward count bytes).2

def sendExpired (accepts : Nat → Sender → Bool) (inputTx : Sender) (plane : DataPlane)
    (expired : List Packet) : DataPlane :=
  if expired.isEmpty then plane
  else
    let (count, bytes) := batchStats expired
    -- Counted as dropped here although the TUN still gets them.
    let plane := plane.recordDrop .ttlExpired count bytes
    let (placed, plane) := plane.sendWithBackpressure accepts inputTx expired
    if placed then plane else plane.recordDrop .channelClosed count bytes

/-- Routes a group of packets for `dst`. -/
def handleGroup (table : RoutingTable Trie) (inputTx : Sender) (accepts : Nat → Sender → Bool)
    (plane : DataPlane) (dst : IpAddr) (group : List Packet) : DataPlane :=
  let (count, bytes) := batchStats group
  match table.lookup dst with
  | none => plane.recordDrop .noRoute count bytes
  | some route =>
      if route.tx = inputTx then (plane.sendAndRecord accepts route.tx group count bytes).2
      else
        let parts := partitionTtl group
        let plane := recordRefused plane parts.refused
        let plane := sendForward accepts route.tx plane parts.forward
        sendExpired accepts inputTx plane parts.expired

def handleIngressBatch (table : RoutingTable Trie) (inputTx : Sender)
    (accepts : Nat → Sender → Bool) (plane : DataPlane) (batch : List Packet) : DataPlane :=
  match batch with
  | [] => plane
  | first :: rest =>
      match extractDstIp first with
      | none =>
          -- A malformed packet makes no group of its own.
          handleIngressBatch table inputTx accepts
            (plane.recordDrop .invalidIpVersion 1 first.length) rest
      | some dst =>
          let group := first :: rest.takeWhile fun packet => extractDstIp packet = some dst
          let remaining := rest.dropWhile fun packet => extractDstIp packet = some dst
          handleIngressBatch table inputTx accepts
            (handleGroup table inputTx accepts plane dst group) remaining
termination_by batch.length
decreasing_by
  · simp
  · simp only [List.length_cons]
    exact Nat.lt_succ_of_le (List.length_dropWhile_le _ _)

/-! ## The specification of one packet -/

/-- Where a packet goes and what arrives there; `none` for a dropped packet. -/
def routePacket (table : RoutingTable Trie) (inputTx : Sender) (packet : Packet) :
    Option (Sender × Packet) :=
  match extractDstIp packet with
  | none => none
  | some dst =>
      match table.lookup dst with
      | none => none
      | some route =>
          if route.tx = inputTx then some (inputTx, packet)
          else if 2 ≤ (ttl packet).toNat then some (route.tx, (decrementTtl packet).2)
          else some (inputTx, (decrementTtl packet).2)

def streamKey (delivery : Sender × Packet) : Sender × Option IpAddr :=
  (delivery.1, extractDstIp delivery.2)

def survivesHop (packet : Packet) : Bool := 2 ≤ (ttl packet).toNat

theorem expired_iff (packet : Packet) :
    ttl packet = 0 ∨ ttl packet = 1 ↔ survivesHop packet = false := by
  rw [← UInt8.toNat_inj, ← UInt8.toNat_inj, survivesHop, decide_eq_false_iff_not]
  show (ttl packet).toNat = 0 ∨ (ttl packet).toNat = 1 ↔ _
  omega

theorem partitionTtl_eq {group : List Packet} (formed : ∀ packet ∈ group, WellFormed packet) :
    partitionTtl group =
      ⟨(group.filter survivesHop).map fun packet => (decrementTtl packet).2,
        (group.filter fun packet => !survivesHop packet).map fun packet =>
          (decrementTtl packet).2, []⟩ := by
  induction group with
  | nil => rfl
  | cons packet rest ih =>
    have old := decrementTtl_fst (formed packet (by simp))
    have tail := ih fun other member => formed other (by simp [member])
    have pair : decrementTtl packet = (some (ttl packet), (decrementTtl packet).2) := by rw [← old]
    simp only [partitionTtl, tail]
    rw [pair]
    simp only [expired_iff]
    cases alive : survivesHop packet <;> simp [alive]

/-! ## One group -/

theorem group_shared {first : Packet} (rest : List Packet) {dst : IpAddr}
    (found : extractDstIp first = some dst) :
    ∀ packet ∈ first :: rest.takeWhile (fun packet => extractDstIp packet = some dst),
      extractDstIp packet = some dst := by
  intro packet member
  rcases List.mem_cons.mp member with rfl | member
  · exact found
  · simpa using List.mem_takeWhile_imp (p := fun packet => decide (extractDstIp packet = some dst))
      member

theorem group_append (first : Packet) (rest : List Packet) (dst : IpAddr) :
    first :: rest = (first :: rest.takeWhile fun packet => extractDstIp packet = some dst) ++
      rest.dropWhile fun packet => extractDstIp packet = some dst := by
  rw [List.cons_append, List.takeWhile_append_dropWhile]

theorem wellFormed_of_shared {group : List Packet} {dst : IpAddr}
    (shared : ∀ packet ∈ group, extractDstIp packet = some dst) :
    ∀ packet ∈ group, WellFormed packet := by
  intro packet member
  rw [← extractDstIp_isSome_iff, shared packet member]
  rfl

def hop (tx inputTx : Sender) (packet : Packet) : Sender × Packet :=
  (if survivesHop packet then tx else inputTx, (decrementTtl packet).2)

theorem partitionTtl_hop {tx inputTx : Sender} (remote : tx ≠ inputTx) {group : List Packet}
    (formed : ∀ packet ∈ group, WellFormed packet) :
    (partitionTtl group).forward.map (fun packet => (tx, packet)) ++
        (partitionTtl group).expired.map (fun packet => (inputTx, packet)) =
      ((group.map (hop tx inputTx)).filter fun delivery => decide ((streamKey delivery).1 = tx)) ++
        (group.map (hop tx inputTx)).filter fun delivery =>
          !decide ((streamKey delivery).1 = tx) := by
  have sorted : (fun delivery => decide ((streamKey delivery).1 = tx)) ∘ hop tx inputTx =
      survivesHop := by
    funext packet
    cases alive : survivesHop packet <;> simp [streamKey, hop, alive, Ne.symm remote]
  have sortedNot : (fun delivery => !decide ((streamKey delivery).1 = tx)) ∘ hop tx inputTx =
      fun packet => !survivesHop packet := by
    funext packet
    exact congrArg (fun sort => !sort packet) sorted
  rw [partitionTtl_eq formed, List.filter_map, List.filter_map, sorted, sortedNot, List.map_map,
    List.map_map]
  congr 1
  · apply List.map_congr_left
    intro packet member
    simp [hop, (List.mem_filter.mp member).2]
  · apply List.map_congr_left
    intro packet member
    have expired : survivesHop packet = false := by simpa using (List.mem_filter.mp member).2
    simp [hop, expired]

section Open

variable {accepts : Nat → Sender → Bool} (isOpen : ∀ attempt tx, accepts attempt tx = true)
include isOpen

theorem delivered_sendForward (tx : Sender) (plane : DataPlane) (forward : List Packet) :
    (sendForward accepts tx plane forward).delivered = plane.delivered ++ forward.map fun packet =>
      (tx, packet) := by
  unfold sendForward
  cases forward with
  | nil => simp
  | cons first rest => exact DataPlane.delivered_sendAndRecord isOpen plane tx _ _ _

theorem delivered_sendExpired (inputTx : Sender) (plane : DataPlane) (expired : List Packet) :
    (sendExpired accepts inputTx plane expired).delivered =
      plane.delivered ++ expired.map fun packet => (inputTx, packet) := by
  unfold sendExpired
  cases expired with
  | nil => simp
  | cons first rest =>
    have sent := DataPlane.delivered_sendWithBackpressure isOpen
      (plane.recordDrop .ttlExpired (batchStats (first :: rest)).1 (batchStats (first :: rest)).2)
        inputTx (first :: rest)
    simp only [List.isEmpty_cons, Bool.false_eq_true, if_false]
    split
    · exact sent
    · exact sent

theorem delivered_handleGroup (table : RoutingTable Trie) (inputTx : Sender) (plane : DataPlane)
    {dst : IpAddr} {group : List Packet}
    (shared : ∀ packet ∈ group, extractDstIp packet = some dst) :
    ∃ deliveries, (handleGroup table inputTx accepts plane dst group).delivered =
      plane.delivered ++ deliveries ∧
      SameStreams streamKey deliveries (group.filterMap (routePacket table inputTx)) := by
  have formed := wellFormed_of_shared shared
  unfold handleGroup
  cases found : table.lookup dst with
  | none =>
    refine ⟨[], by simp, ?_⟩
    have dropped : group.filterMap (routePacket table inputTx) = [] :=
      List.filterMap_eq_nil_iff.mpr fun packet member => by
        simp [routePacket, shared packet member, found]
    rw [dropped]
    exact .refl _
  | some route =>
    by_cases isLocal : route.tx = inputTx
    -- Packets for this host are handed on as they are.
    · refine ⟨group.map fun packet => (inputTx, packet), ?_, ?_⟩
      · simp only [isLocal, if_true]
        exact DataPlane.delivered_sendAndRecord isOpen plane inputTx group _ _
      · have direct : group.filterMap (routePacket table inputTx) = group.map fun packet =>
            (inputTx, packet) := by
          rw [← List.filterMap_eq_map]
          exact List.filterMap_congr fun packet member => by
            simp [routePacket, shared packet member, found, isLocal]
        rw [direct]
        exact .refl _
    · have hops : group.filterMap (routePacket table inputTx) =
          group.map (hop route.tx inputTx) := by
        rw [← List.filterMap_eq_map]
        exact List.filterMap_congr fun packet member => by
          simp only [routePacket, shared packet member, found, if_neg isLocal, hop, survivesHop,
            decide_eq_true_eq, Function.comp_apply]
          split <;> rfl
      rw [hops]
      -- Those that expire go to another channel than those that go on, so that each stream keeps
      -- its order though the group is split.
      refine ⟨_, ?_, SameStreams.partition (fun key : Sender × Option IpAddr =>
        decide (key.1 = route.tx)) _⟩
      rw [← partitionTtl_hop isLocal formed, ← List.append_assoc]
      have refused : (partitionTtl group).refused = [] := by rw [partitionTtl_eq formed]
      simp only [if_neg isLocal, delivered_sendExpired isOpen, delivered_sendForward isOpen,
        refused]
      rfl

theorem delivered_handleIngressBatch (table : RoutingTable Trie) (inputTx : Sender)
    (plane : DataPlane) (batch : List Packet) :
    ∃ deliveries, (handleIngressBatch table inputTx accepts plane batch).delivered =
      plane.delivered ++ deliveries ∧
      SameStreams streamKey deliveries (batch.filterMap (routePacket table inputTx)) := by
  fun_induction handleIngressBatch table inputTx accepts plane batch with
  | case1 plane => exact ⟨[], by simp, .refl _⟩
  | case2 plane first rest malformed ih =>
    obtain ⟨deliveries, sent, same⟩ := ih
    refine ⟨deliveries, by simpa using sent, ?_⟩
    simpa [routePacket, malformed] using same
  | case3 plane first rest dst found group remaining ih =>
    obtain ⟨later, laterSent, laterSame⟩ := ih
    obtain ⟨now, nowSent, nowSame⟩ := delivered_handleGroup isOpen table inputTx plane
      (group_shared rest found)
    -- the group is the front of the batch, so its deliveries come before all later ones
    have whole : first :: rest = group ++ remaining := group_append first rest dst
    refine ⟨now ++ later, by rw [laterSent, nowSent, List.append_assoc], ?_⟩
    rw [whole, List.filterMap_append]
    exact nowSame.append laterSame

end Open

/-! ## Malformed packets -/

theorem malformed_handleGroup (table : RoutingTable Trie) (inputTx : Sender)
    (accepts : Nat → Sender → Bool) (plane : DataPlane) {dst : IpAddr} {group : List Packet}
    (shared : ∀ packet ∈ group, extractDstIp packet = some dst) :
    (handleGroup table inputTx accepts plane dst group).stats.dropReasons .invalidIpVersion =
      plane.stats.dropReasons .invalidIpVersion := by
  have formed := wellFormed_of_shared shared
  have refused : (partitionTtl group).refused = [] := by rw [partitionTtl_eq formed]
  have forwarded (tx : Sender) (plane : DataPlane) (forward : List Packet) :
      (sendForward accepts tx plane forward).stats.dropReasons .invalidIpVersion =
        plane.stats.dropReasons .invalidIpVersion := by
    unfold sendForward
    split
    · rfl
    · exact DataPlane.dropReasons_sendAndRecord accepts plane tx forward _ _ (by decide)
  have expired (plane : DataPlane) (expired : List Packet) :
      (sendExpired accepts inputTx plane expired).stats.dropReasons .invalidIpVersion =
        plane.stats.dropReasons .invalidIpVersion := by
    unfold sendExpired
    split
    · rfl
    · simp only
      split <;> simp
  unfold handleGroup
  simp only
  split
  · simp
  · split
    · exact DataPlane.dropReasons_sendAndRecord accepts plane _ group _ _ (by decide)
    · rw [expired, forwarded, refused]
      rfl

theorem malformed_handleIngressBatch (table : RoutingTable Trie) (inputTx : Sender)
    (accepts : Nat → Sender → Bool) (plane : DataPlane) (batch : List Packet) :
    (handleIngressBatch table inputTx accepts plane batch).stats.dropReasons .invalidIpVersion =
      (batch.filter fun packet => (extractDstIp packet).isNone).foldl
        (fun counters packet => counters.record 1 packet.length)
          (plane.stats.dropReasons .invalidIpVersion) := by
  fun_induction handleIngressBatch table inputTx accepts plane batch with
  | case1 plane => rfl
  | case2 plane first rest malformed ih => simp [ih, malformed]
  | case3 plane first rest dst found group remaining ih =>
    have shared := group_shared rest found
    have whole : first :: rest = group ++ remaining := group_append first rest dst
    have kept : group.filter (fun packet => (extractDstIp packet).isNone) = [] :=
      List.filter_eq_nil_iff.mpr fun packet member => by simp [shared packet member]
    rw [ih, whole, List.filter_append, kept, List.nil_append,
      malformed_handleGroup table inputTx accepts plane shared]

theorem extractDstIp_routePacket {table : RoutingTable Trie} {inputTx : Sender} {packet : Packet}
    {delivery : Sender × Packet} (routed : routePacket table inputTx packet = some delivery) :
    extractDstIp delivery.2 = extractDstIp packet := by
  unfold routePacket at routed
  split at routed
  · cases routed
  · split at routed
    · cases routed
    · split at routed
      · cases routed
        rfl
      · split at routed
        · cases routed
          exact extractDstIp_decrementTtl packet
        · cases routed
          exact extractDstIp_decrementTtl packet

/-- With open channels a batch is handled packet by packet as `routePacket` says: nothing is
lost or repeated, a destination keeps its order on each channel, and malformed packets are
the only ones dropped as such. -/
theorem handleIngressBatch_spec (table : RoutingTable Trie) (inputTx : Sender)
    (accepts : Nat → Sender → Bool) (isOpen : ∀ attempt tx, accepts attempt tx = true)
    (plane : DataPlane) (batch : List Packet) :
    (∃ deliveries, (handleIngressBatch table inputTx accepts plane batch).delivered =
      plane.delivered ++ deliveries ∧
      deliveries.Perm (batch.filterMap (routePacket table inputTx)) ∧
      ∀ tx dst, (deliveries.filter fun delivery => delivery.1 = tx ∧
        extractDstIp delivery.2 = some dst) =
        (batch.filterMap (routePacket table inputTx)).filter
          fun delivery => delivery.1 = tx ∧ extractDstIp delivery.2 = some dst) ∧
    (∀ packet delivery, routePacket table inputTx packet = some delivery →
      extractDstIp delivery.2 = extractDstIp packet) ∧
    (∀ packet, (extractDstIp packet).isSome → (decrementTtl packet).1.isSome) ∧
    (handleIngressBatch table inputTx accepts plane batch).stats.dropReasons .invalidIpVersion =
      (batch.filter fun packet => (extractDstIp packet).isNone).foldl
        (fun counters packet => counters.record 1 packet.length)
          (plane.stats.dropReasons .invalidIpVersion) := by
  obtain ⟨deliveries, sent, same⟩ := delivered_handleIngressBatch isOpen table inputTx plane batch
  refine ⟨⟨deliveries, sent, same.perm, fun tx dst => ?_⟩, fun _ _ => extractDstIp_routePacket,
    fun packet found => ?_,
    malformed_handleIngressBatch table inputTx accepts plane batch⟩
  · simpa only [streamKey, Prod.mk.injEq] using same (tx, some dst)
  · rw [decrementTtl_fst ((extractDstIp_isSome_iff packet).mp found)]
    rfl

def sampleTable : RoutingTable AssocTrie := ⟨⟨[(⟨.v4 0#32, 0, by decide⟩, ⟨"peer", ⟨1⟩⟩)]⟩⟩

def sampleBatch : List Packet := [[], sampleHeader, sampleHeader.set 8 1]

theorem handleIngressBatch_sample :
    ∃ deliveries,
    (handleIngressBatch sampleTable ⟨0⟩ (fun _ _ => true) ⟨.new, .empty⟩ sampleBatch).delivered =
        deliveries ∧
      deliveries.Perm [(⟨1⟩, (decrementTtl sampleHeader).2),
        (⟨0⟩, (decrementTtl (sampleHeader.set 8 1)).2)] := by
  obtain ⟨⟨deliveries, sent, perm, _⟩, _⟩ :=
    handleIngressBatch_spec sampleTable ⟨0⟩ (fun _ _ => true)
    (fun _ _ => rfl) ⟨.new, .empty⟩ sampleBatch
  have routed : sampleBatch.filterMap (routePacket sampleTable ⟨0⟩) =
      [(⟨1⟩, (decrementTtl sampleHeader).2), (⟨0⟩, (decrementTtl (sampleHeader.set 8 1)).2)] := by
    decide +kernel
  exact ⟨deliveries, sent, routed ▸ perm⟩

end H3llo.Router
