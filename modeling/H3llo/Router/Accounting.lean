import H3llo.Router.Ingress
import Mathlib.Algebra.BigOperators.Group.Finset.Basic
import Mathlib.Algebra.Group.Prod
import Mathlib.Data.Fintype.Defs

/-! The counters of the ingress path.

Which packets are dropped, sent or expire is fixed by the table alone. The channels only
decide how a send is counted, so a batch is first cut into a plan of what happens to its
packets, and the counters are read off the plan.
-/

set_option autoImplicit false

namespace H3llo

instance : Fintype DropReason where
  elems := {.oversize, .disallowedSource, .sendError, .quicError, .channelClosed, .invalidIpVersion,
    .invalidFraming,
    .noRoute, .noPeerChannel, .noHeadroom, .queueFull, .ttlExpired}
  complete reason := by cases reason <;> decide

/-- Packets and bytes. -/
abbrev Load := Nat × Nat

/-! ## Counters below saturation -/

namespace PktCounters

def load (counters : PktCounters) : Load := (counters.packets, counters.bytes)

def Below (counters : PktCounters) : Prop := counters.packets < u64Max ∧ counters.bytes < u64Max

instance (counters : PktCounters) : Decidable counters.Below := inferInstanceAs (Decidable (_ ∧ _))

theorem below_of_record {counters : PktCounters} {count totalBytes : Nat}
    (below : (counters.record count totalBytes).Below) :
    counters.Below ∧ (counters.record count totalBytes).load =
      counters.load + (count, totalBytes) := by
  obtain ⟨packets, bytes⟩ := below
  simp only [record, saturatingAdd] at packets bytes
  constructor
  · constructor <;> omega
  · simp only [record, saturatingAdd, load, Prod.mk_add_mk, Prod.mk.injEq]
    constructor <;> omega

end PktCounters

namespace Stats

structure Below (stats : Stats) : Prop where
  succeeded : stats.succeeded.Below
  dropped : stats.dropped.Below
  reasons : ∀ reason, (stats.dropReasons reason).Below

instance (stats : Stats) : Decidable stats.Below :=
  decidable_of_iff (stats.succeeded.Below ∧ stats.dropped.Below ∧ ∀ reason,
    (stats.dropReasons reason).Below)
    ⟨fun below => ⟨below.1, below.2.1, below.2.2⟩, fun below =>
      ⟨below.succeeded, below.dropped, below.reasons⟩⟩

def outcomes (stats : Stats) : Load := stats.succeeded.load + stats.dropped.load

def reasonPackets (stats : Stats) : Nat := ∑ reason, (stats.dropReasons reason).packets

theorem reasonPackets_recordDrop (stats : Stats) {reason : DropReason} {load : Load}
    (below : ((stats.dropReasons reason).record load.1 load.2).Below) :
    (stats.recordDrop reason load.1 load.2).reasonPackets = stats.reasonPackets + load.1 := by
  have caused := congrArg Prod.fst (PktCounters.below_of_record below).2
  have rest : ∀ other ∈ Finset.univ.erase reason,
      ((stats.recordDrop reason load.1 load.2).dropReasons other).packets =
        (stats.dropReasons other).packets := by
    intro other member
    simp [Stats.recordDrop, Finset.ne_of_mem_erase member]
  unfold reasonPackets
  rw [← Finset.add_sum_erase _ _ (Finset.mem_univ reason),
    ← Finset.add_sum_erase _ _ (Finset.mem_univ reason),
    Finset.sum_congr rfl rest]
  simp only [Stats.recordDrop, Function.update_self]
  simp only [PktCounters.load, Prod.fst_add] at caused
  omega

/-- Below saturation the second state counts `load` more than the first, and what it counts as
dropped has a reason. -/
structure Counts (load : Load) (before after : Stats) : Prop where
  below : after.Below → before.Below
  outcomes : after.Below → after.outcomes = before.outcomes + load
  reasons : after.Below → after.dropped.packets + before.reasonPackets =
    before.dropped.packets + after.reasonPackets

namespace Counts

theorem refl (stats : Stats) : Counts 0 stats stats where
  below := id
  outcomes _ := (add_zero _).symm
  reasons _ := rfl

theorem trans {early late : Load} {first second third : Stats} (left : Counts early first second)
    (right : Counts late second third) : Counts (early + late) first third where
  below below := left.below (right.below below)
  outcomes below := by rw [right.outcomes below, left.outcomes (right.below below), add_assoc]
  reasons below := by
    have earlier := left.reasons (right.below below)
    have later := right.reasons below
    omega

theorem recordSuccess (stats : Stats) (load : Load) :
    Counts load stats (stats.recordSuccess load.1 load.2) where
  below below := ⟨(PktCounters.below_of_record below.succeeded).1, below.dropped, below.reasons⟩
  outcomes below := by
    have counted := (PktCounters.below_of_record below.succeeded).2
    unfold Stats.outcomes
    rw [Stats.recordSuccess, counted, add_right_comm]
  reasons _ := rfl

theorem recordDrop (stats : Stats) (reason : DropReason) (load : Load) :
    Counts load stats (stats.recordDrop reason load.1 load.2) := by
  have own (below : (stats.recordDrop reason load.1 load.2).Below) :
      ((stats.dropReasons reason).record load.1 load.2).Below := by
    simpa [Stats.recordDrop] using below.reasons reason
  constructor
  · intro below
    refine ⟨below.succeeded, (PktCounters.below_of_record below.dropped).1, fun other => ?_⟩
    by_cases same : other = reason
    · rw [same]
      exact (PktCounters.below_of_record (own below)).1
    · simpa [Stats.recordDrop, same] using below.reasons other
  · intro below
    have counted := (PktCounters.below_of_record below.dropped).2
    unfold Stats.outcomes
    rw [Stats.recordDrop, counted, add_assoc]
  · intro below
    have dropped := congrArg Prod.fst (PktCounters.below_of_record below.dropped).2
    simp only [PktCounters.load, Prod.fst_add] at dropped
    rw [reasonPackets_recordDrop stats (own below)]
    simp only [Stats.recordDrop]
    omega

end Counts
end Stats

@[simp] theorem batchStats_nil : batchStats [] = 0 := rfl

theorem batchStats_append (first second : List Packet) :
    batchStats (first ++ second) = batchStats first + batchStats second := by
  simp [batchStats]

theorem batchStats_cons (packet : Packet) (rest : List Packet) :
    batchStats (packet :: rest) = (1, packet.length) + batchStats rest := by
  simp [batchStats, Nat.add_comm]

namespace Router
open H3llo.Net

/-! ## The plan of a batch -/

/-- What is done with some packets of a batch. -/
inductive Handling where
  | drop (reason : DropReason) (packets : List Packet)
  | send (tx : Sender) (packets : List Packet)
  | expire (packets : List Packet)
  deriving DecidableEq, Repr

def Handling.packets : Handling → List Packet
  | .drop _ packets | .send _ packets | .expire packets => packets

def Handling.expiring : Handling → List Packet
  | .drop _ _ | .send _ _ => []
  | .expire packets => packets

def perform (accepts : Nat → Sender → Bool) (inputTx : Sender)
    (plane : DataPlane) : Handling → DataPlane
  | .drop reason packets => plane.recordDrop reason (batchStats packets).1 (batchStats packets).2
  | .send tx packets =>
      (plane.sendAndRecord accepts tx packets (batchStats packets).1 (batchStats packets).2).2
  | .expire packets =>
      let (placed, plane) :=
        (plane.recordDrop .ttlExpired (batchStats packets).1
          (batchStats packets).2).sendWithBackpressure accepts inputTx packets
      if placed then
        plane
      else plane.recordDrop .channelClosed (batchStats packets).1 (batchStats packets).2

section Plan

variable {Trie : Type → Type} [PrefixTrie Trie] (table : RoutingTable Trie) (inputTx : Sender)

def planGroup (dst : IpAddr) (group : List Packet) : List Handling :=
  match table.lookup dst with
  | none => [.drop .noRoute group]
  | some route =>
      if route.tx = inputTx then [.send route.tx group]
      else
        let parts := partitionTtl group
        parts.refused.map (fun packet => .drop .invalidIpVersion [packet]) ++
          ((if parts.forward.isEmpty then [] else [.send route.tx parts.forward]) ++
            if parts.expired.isEmpty then [] else [.expire parts.expired])

def plan (batch : List Packet) : List Handling :=
  match batch with
  | [] => []
  | first :: rest =>
      match extractDstIp first with
      | none => .drop .invalidIpVersion [first] :: plan rest
      | some dst =>
          planGroup table inputTx dst (first :: rest.takeWhile fun packet =>
            extractDstIp packet = some dst) ++
            plan (rest.dropWhile fun packet => extractDstIp packet = some dst)
termination_by batch.length
decreasing_by
  · simp
  · simp only [List.length_cons]
    exact Nat.lt_succ_of_le (List.length_dropWhile_le _ _)

variable (accepts : Nat → Sender → Bool)

theorem recordRefused_eq (plane : DataPlane) (refused : List Packet) :
    recordRefused plane refused =
      (refused.map fun packet => Handling.drop .invalidIpVersion [packet]).foldl
        (perform accepts inputTx) plane := by
  induction refused generalizing plane with
  | nil => rfl
  | cons packet rest ih =>
    have one : batchStats [packet] = (1, packet.length) := by simp [batchStats]
    simp only [recordRefused, List.foldl_cons, List.map_cons, perform, one] at ih ⊢
    exact ih _

theorem sendForward_eq (tx : Sender) (plane : DataPlane) (forward : List Packet) :
    sendForward accepts tx plane forward =
      (if forward.isEmpty then [] else [Handling.send tx forward]).foldl
        (perform accepts inputTx) plane := by
  unfold sendForward
  split <;> rfl

theorem sendExpired_eq (plane : DataPlane) (expired : List Packet) :
    sendExpired accepts inputTx plane expired =
      (if expired.isEmpty then [] else [Handling.expire expired]).foldl
        (perform accepts inputTx) plane := by
  unfold sendExpired
  split <;> rfl

theorem handleGroup_eq (plane : DataPlane) (dst : IpAddr) (group : List Packet) :
    handleGroup table inputTx accepts plane dst group =
      (planGroup table inputTx dst group).foldl (perform accepts inputTx) plane := by
  unfold handleGroup planGroup
  cases table.lookup dst with
  | none => rfl
  | some route =>
    by_cases isLocal : route.tx = inputTx
    · simp only [isLocal, if_true]
      rfl
    · simp only [isLocal, if_false, List.foldl_append]
      rw [← recordRefused_eq, ← sendForward_eq, ← sendExpired_eq]

theorem handleIngressBatch_eq (plane : DataPlane) (batch : List Packet) :
    handleIngressBatch table inputTx accepts plane batch =
      (plan table inputTx batch).foldl (perform accepts inputTx) plane := by
  fun_induction handleIngressBatch table inputTx accepts plane batch with
  | case1 plane => simp [plan]
  | case2 plane first rest malformed ih =>
    rw [ih, plan, malformed]
    simp [perform, batchStats]
  | case3 plane first rest dst found group remaining ih =>
    rw [ih, plan, found]
    simp only [List.foldl_append]
    rw [← handleGroup_eq]

theorem batchStats_partitionTtl (group : List Packet) :
    batchStats (partitionTtl group).refused +
      (batchStats (partitionTtl group).forward + batchStats (partitionTtl group).expired) =
        batchStats group := by
  induction group with
  | nil => rfl
  | cons packet rest ih =>
    have same := length_decrementTtl packet
    simp only [partitionTtl]
    rw [batchStats_cons, ← ih]
    cases hop : decrementTtl packet with
    | mk oldTtl after =>
      rw [hop] at same
      cases oldTtl with
      | none =>
        simp only [batchStats_cons, same]
        ac_rfl
      | some oldTtl =>
        simp only
        split
        · simp only [batchStats_cons, same]
          ac_rfl
        · simp only [batchStats_cons, same]
          ac_rfl

theorem load_planGroup (dst : IpAddr) (group : List Packet) :
    ((planGroup table inputTx dst group).map fun handling => batchStats handling.packets).sum =
      batchStats group := by
  unfold planGroup
  cases table.lookup dst with
  | none => simp [Handling.packets]
  | some route =>
    by_cases isLocal : route.tx = inputTx
    · simp [isLocal, Handling.packets]
    · have refused :
          (((partitionTtl group).refused.map fun packet =>
            Handling.drop .invalidIpVersion [packet]).map
          fun handling => batchStats handling.packets).sum =
            batchStats (partitionTtl group).refused := by
        induction (partitionTtl group).refused with
        | nil => rfl
        | cons packet rest ih =>
          rw [List.map_cons, List.map_cons, List.sum_cons, ih]
          exact (batchStats_append [packet] rest).symm
      have sent (handling : List Packet → Handling) (own : ∀ packets,
          (handling packets).packets = packets)
          (packets : List Packet) : ((if packets.isEmpty then [] else [handling packets]).map
            fun handling => batchStats handling.packets).sum = batchStats packets := by
        cases packets with
        | nil => rfl
        | cons first rest => simp [own]
      simp only [if_neg isLocal, List.map_append, List.sum_append]
      rw [refused, sent (Handling.send route.tx) (fun _ => rfl),
        sent Handling.expire (fun _ => rfl),
        batchStats_partitionTtl]

theorem load_plan (batch : List Packet) :
    ((plan table inputTx batch).map fun handling => batchStats handling.packets).sum =
      batchStats batch := by
  fun_induction plan table inputTx batch with
  | case1 => rfl
  | case2 first rest malformed ih =>
    rw [List.map_cons, List.sum_cons, ih]
    exact (batchStats_append [first] rest).symm
  | case3 first rest dst found ih =>
    rw [List.map_append, List.sum_append, load_planGroup, ih, ← batchStats_append, ← group_append]

end Plan

/-! ## Expired packets at a closed channel -/

/-- Expired packets of a plan that find the TUN channel closed, if `attempts` sends came before. -/
def stranded (accepts : Nat → Sender → Bool) (inputTx : Sender) : Nat → List Handling → List Packet
  | _, [] => []
  | attempts, .drop _ _ :: rest => stranded accepts inputTx attempts rest
  | attempts, .send _ _ :: rest => stranded accepts inputTx (attempts + 1) rest
  | attempts, .expire packets :: rest =>
      (if accepts attempts inputTx then [] else packets) ++ stranded accepts inputTx
        (attempts + 1) rest

section Counting

variable (accepts : Nat → Sender → Bool) (inputTx : Sender)

theorem attempts_sendWithBackpressure (plane : DataPlane) (tx : Sender) (packets : List Packet) :
    (plane.sendWithBackpressure accepts tx packets).2.outlet.attempts =
      plane.outlet.attempts + 1 := by
  cases isOpen : accepts plane.outlet.attempts tx <;> simp [DataPlane.sendWithBackpressure,
    Outlet.send, isOpen]

theorem attempts_sendAndRecord (plane : DataPlane) (tx : Sender) (packets : List Packet)
    (count totalBytes : Nat) :
    (plane.sendAndRecord accepts tx packets count totalBytes).2.outlet.attempts =
      plane.outlet.attempts + 1 := by
  unfold DataPlane.sendAndRecord
  simp only
  split
  · exact attempts_sendWithBackpressure accepts plane tx packets
  · exact attempts_sendWithBackpressure accepts plane tx packets

theorem counts_sendAndRecord (plane : DataPlane) (tx : Sender) (packets : List Packet)
    (load : Load) :
    Stats.Counts load plane.stats
      (plane.sendAndRecord accepts tx packets load.1 load.2).2.stats := by
  unfold DataPlane.sendAndRecord
  simp only
  split
  · exact .recordSuccess plane.stats load
  · exact .recordDrop plane.stats .channelClosed load

theorem counts_expire (plane : DataPlane) (packets : List Packet) :
    Stats.Counts (batchStats packets + batchStats
      (if accepts plane.outlet.attempts inputTx then [] else packets))
      plane.stats (perform accepts inputTx plane (.expire packets)).stats := by
  have expired := Stats.Counts.recordDrop plane.stats .ttlExpired (batchStats packets)
  cases isOpen : accepts plane.outlet.attempts inputTx with
  | true =>
    simpa [perform, DataPlane.sendWithBackpressure, Outlet.send, DataPlane.recordDrop,
      isOpen] using expired
  | false =>
    have closed := expired.trans (.recordDrop _ .channelClosed (batchStats packets))
    simpa [perform, DataPlane.sendWithBackpressure, Outlet.send, DataPlane.recordDrop,
      isOpen] using closed

theorem attempts_expire (plane : DataPlane) (packets : List Packet) :
    (perform accepts inputTx plane (.expire packets)).outlet.attempts =
      plane.outlet.attempts + 1 := by
  have sent := attempts_sendWithBackpressure accepts
    (plane.recordDrop .ttlExpired (batchStats packets).1 (batchStats packets).2) inputTx packets
  unfold perform
  simp only
  split
  · exact sent
  · exact sent

theorem counts_perform (handlings : List Handling) (plane : DataPlane) :
    Stats.Counts ((handlings.map fun handling => batchStats handling.packets).sum +
        batchStats (stranded accepts inputTx plane.outlet.attempts handlings))
      plane.stats (handlings.foldl (perform accepts inputTx) plane).stats := by
  induction handlings generalizing plane with
  | nil => exact .refl _
  | cons handling rest ih =>
    have later := ih (perform accepts inputTx plane handling)
    cases handling with
    | drop reason packets =>
      have now := Stats.Counts.recordDrop plane.stats reason (batchStats packets)
      have both := now.trans later
      rw [← add_assoc] at both
      exact both
    | send tx packets =>
      have now := counts_sendAndRecord accepts plane tx packets (batchStats packets)
      have both := now.trans later
      rw [← add_assoc, perform, attempts_sendAndRecord] at both
      exact both
    | expire packets =>
      have now := counts_expire accepts inputTx plane packets
      have both := now.trans later
      rw [attempts_expire] at both
      simp only [List.map_cons, List.sum_cons, stranded, batchStats_append, Handling.packets]
      rw [add_add_add_comm]
      exact both

end Counting

/-- The packet is routed to a peer and has no hop left. -/
def Expires {Trie : Type → Type} [PrefixTrie Trie] (table : RoutingTable Trie) (inputTx : Sender)
    (packet : Packet) : Prop :=
  ∃ dst route, extractDstIp packet = some dst ∧ table.lookup dst = some route ∧ route.tx ≠ inputTx ∧
    survivesHop packet = false

/-- If the TUN channel does not change, either no packet is stranded or all that expire. -/
theorem stranded_unchanging {accepts : Nat → Sender → Bool} {inputTx : Sender} {isOpen : Bool}
    (unchanging : ∀ attempt, accepts attempt inputTx = isOpen) (attempts : Nat)
    (handlings : List Handling) :
    stranded accepts inputTx attempts handlings =
      if isOpen then [] else handlings.flatMap Handling.expiring := by
  induction handlings generalizing attempts with
  | nil => simp [stranded]
  | cons handling rest ih =>
    cases handling with
    | drop reason packets | send tx packets =>
      simp only [stranded, ih, List.flatMap_cons, Handling.expiring, List.nil_append]
    | expire packets =>
      simp only [stranded, ih, unchanging, List.flatMap_cons, Handling.expiring]
      cases isOpen <;> rfl

section Expiring

variable {Trie : Type → Type} [PrefixTrie Trie] (table : RoutingTable Trie) (inputTx : Sender)

theorem expiring_planGroup {dst : IpAddr} {group : List Packet}
    (shared : ∀ packet ∈ group, extractDstIp packet = some dst) :
    (planGroup table inputTx dst group).flatMap Handling.expiring = [] ↔ ∀ packet ∈ group,
    ¬ Expires table inputTx packet := by
  have expires {packet : Packet} (member : packet ∈ group) : Expires table inputTx packet ↔
      ∃ route, table.lookup dst = some route ∧ route.tx ≠ inputTx ∧ survivesHop packet = false := by
    simp [Expires, shared packet member]
  unfold planGroup
  cases found : table.lookup dst with
  | none =>
    refine iff_of_true rfl fun packet member => ?_
    rw [expires member, found]
    simp
  | some route =>
    by_cases isLocal : route.tx = inputTx
    · simp only [isLocal, if_true]
      refine iff_of_true rfl fun packet member => ?_
      rw [expires member, found]
      simp [isLocal]
    · have remote {packet : Packet} (member : packet ∈ group) : Expires table inputTx packet ↔
          survivesHop packet = false := by
        rw [expires member, found]
        simp [isLocal]
      simp only [if_neg isLocal, partitionTtl_eq (wellFormed_of_shared shared), List.map_nil,
        List.nil_append, List.flatMap_append]
      have forward (packets : List Packet) :
          (if packets.isEmpty then [] else [Handling.send route.tx packets]).flatMap
            Handling.expiring = [] := by
        split <;> rfl
      have expired (packets : List Packet) :
          (if packets.isEmpty then [] else [Handling.expire packets]).flatMap Handling.expiring =
            packets := by
        cases packets with
        | nil => rfl
        | cons first rest => simp [Handling.expiring]
      rw [forward, expired, List.nil_append, List.map_eq_nil_iff, List.filter_eq_nil_iff]
      refine forall₂_congr fun packet member => ?_
      rw [remote member]
      simp

theorem expiring_plan (batch : List Packet) :
    (plan table inputTx batch).flatMap Handling.expiring = [] ↔ ∀ packet ∈ batch,
    ¬ Expires table inputTx packet := by
  fun_induction plan table inputTx batch with
  | case1 => simp
  | case2 first rest malformed ih =>
    have kept : ¬ Expires table inputTx first := by simp [Expires, malformed]
    rw [List.flatMap_cons, List.forall_mem_cons, ← ih]
    simp [Handling.expiring, kept]
  | case3 first rest dst found ih =>
    rw [List.flatMap_append, List.append_eq_nil_iff,
      expiring_planGroup table inputTx (group_shared rest found), ih,
      group_append first rest dst, List.forall_mem_append]

end Expiring

/-! ## Accounting of a batch -/

/-- The packets and bytes of a batch are counted as succeeded or dropped, and the dropped ones by
reason. -/
structure Accounted (before after : Stats) (batch : List Packet) : Prop where
  packets : after.succeeded.packets + after.dropped.packets =
    before.succeeded.packets + before.dropped.packets + batch.length
  bytes : after.succeeded.bytes + after.dropped.bytes =
    before.succeeded.bytes + before.dropped.bytes + (batch.map List.length).sum
  reasons : after.dropped.packets + ∑ reason, (before.dropReasons reason).packets =
    before.dropped.packets + ∑ reason, (after.dropReasons reason).packets

theorem accounted_iff {before after : Stats} {batch twice : List Packet}
    (counts : Stats.Counts (batchStats batch + batchStats twice) before after)
    (below : after.Below) : Accounted before after batch ↔ twice = [] := by
  have outcomes := counts.outcomes below
  simp only [Stats.outcomes, PktCounters.load, batchStats, Prod.mk_add_mk,
    Prod.mk.injEq] at outcomes
  obtain ⟨packets, bytes⟩ := outcomes
  constructor
  · intro accounted
    have same := accounted.packets
    exact List.length_eq_zero_iff.mp (by omega)
  · intro none
    subst none
    simp only [List.length_nil, List.map_nil, List.sum_nil] at packets bytes
    exact ⟨by omega, by omega, counts.reasons below⟩

/-- Below saturation the counters account for a batch exactly if none of its expired packets finds
the TUN channel closed. Such packets are counted as expired and again as refused by the channel.
For a TUN channel that stays as it is, this means that it is open or that no packet expires. -/
theorem ingress_accounted_iff {Trie : Type → Type} [PrefixTrie Trie] (table : RoutingTable Trie)
    (inputTx : Sender) (accepts : Nat → Sender → Bool) (plane : DataPlane) (batch : List Packet)
    (below : (handleIngressBatch table inputTx accepts plane batch).stats.Below) :
    (Accounted plane.stats (handleIngressBatch table inputTx accepts plane batch).stats batch ↔
      stranded accepts inputTx plane.outlet.attempts (plan table inputTx batch) = []) ∧
    ∀ isOpen, (∀ attempt, accepts attempt inputTx = isOpen) →
      (Accounted plane.stats (handleIngressBatch table inputTx accepts plane batch).stats batch ↔
        isOpen = true ∨ ∀ packet ∈ batch, ¬ Expires table inputTx packet) := by
  have counts := counts_perform accepts inputTx (plan table inputTx batch) plane
  rw [load_plan, ← handleIngressBatch_eq] at counts
  have exact_iff := accounted_iff counts below
  refine ⟨exact_iff, fun isOpen unchanging => ?_⟩
  rw [exact_iff, stranded_unchanging unchanging, ← expiring_plan]
  cases isOpen <;> simp

def lastHop : List Packet := [sampleHeader.set 8 1]

theorem ingress_accounted_open :
    Accounted .new (handleIngressBatch sampleTable ⟨0⟩ (fun _ _ => true)
      ⟨.new, .empty⟩ lastHop).stats lastHop := by
  have below : (handleIngressBatch sampleTable ⟨0⟩ (fun _ _ => true)
      ⟨.new, .empty⟩ lastHop).stats.Below := by
    decide +kernel
  have accounted := ingress_accounted_iff sampleTable ⟨0⟩ (fun _ _ => true)
    ⟨.new, .empty⟩ lastHop below
  exact (accounted.2 true fun _ => rfl).mpr (.inl rfl)

theorem ingress_miscounts_expired :
    (handleIngressBatch sampleTable ⟨0⟩ (fun _ tx => tx ≠ ⟨0⟩) ⟨.new, .empty⟩ lastHop).stats.Below ∧
    (handleIngressBatch sampleTable ⟨0⟩ (fun _ tx => tx ≠ ⟨0⟩)
      ⟨.new, .empty⟩ lastHop).stats.dropped.packets = 2 ∧
    ¬ Accounted .new (handleIngressBatch sampleTable ⟨0⟩ (fun _ tx => tx ≠ ⟨0⟩)
      ⟨.new, .empty⟩ lastHop).stats lastHop := by
  refine ⟨by decide +kernel, by decide +kernel, fun accounted => ?_⟩
  exact absurd accounted.packets (by decide +kernel)

end Router
end H3llo
