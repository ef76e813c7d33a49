import H3llo.Basis.Runs
import H3llo.Router.Accounting

/-! The router actor.

It takes batches from the TUN and from the peers, and a new routing table or a request to
stop from its inbox, in whatever order they come. Every batch is handled with the table
that is in force when it is taken. A tick of the timer reports the counters to the owner.
-/

set_option autoImplicit false

namespace H3llo

/-! ## Growing counters -/

namespace PktCounters

def Fits (counters : PktCounters) : Prop :=
  counters.batches ≤ u64Max ∧ counters.packets ≤ u64Max ∧ counters.bytes ≤ u64Max

protected def Le (first second : PktCounters) : Prop :=
  first.batches ≤ second.batches ∧ first.packets ≤ second.packets ∧ first.bytes ≤ second.bytes

theorem fits_record (counters : PktCounters) (count totalBytes : Nat) :
    (counters.record count totalBytes).Fits :=
  ⟨Nat.min_le_right _ _, Nat.min_le_right _ _, Nat.min_le_right _ _⟩

theorem Le.refl (counters : PktCounters) : counters.Le counters :=
  ⟨Nat.le_refl _, Nat.le_refl _, Nat.le_refl _⟩

theorem Le.trans {first second third : PktCounters} (left : first.Le second)
    (right : second.Le third) : first.Le third :=
  ⟨Nat.le_trans left.1 right.1, Nat.le_trans left.2.1 right.2.1, Nat.le_trans left.2.2 right.2.2⟩

theorem le_record {counters : PktCounters} (fits : counters.Fits) (count totalBytes : Nat) :
    counters.Le (counters.record count totalBytes) := by
  obtain ⟨batches, packets, bytes⟩ := fits
  unfold PktCounters.Le record saturatingAdd
  simp only
  omega

end PktCounters

namespace Stats

structure Fits (stats : Stats) : Prop where
  succeeded : stats.succeeded.Fits
  dropped : stats.dropped.Fits
  reasons : ∀ reason, (stats.dropReasons reason).Fits

protected structure Le (first second : Stats) : Prop where
  succeeded : first.succeeded.Le second.succeeded
  dropped : first.dropped.Le second.dropped
  reasons : ∀ reason, (first.dropReasons reason).Le (second.dropReasons reason)

theorem Le.refl (stats : Stats) : stats.Le stats := ⟨.refl _, .refl _, fun _ => .refl _⟩

theorem Le.trans {first second third : Stats} (left : first.Le second)
    (right : second.Le third) : first.Le third :=
  ⟨left.succeeded.trans right.succeeded, left.dropped.trans right.dropped,
    fun reason => (left.reasons reason).trans (right.reasons reason)⟩

/-- What recording does: the counters grow and stay 64-bit values. -/
structure Grows (before after : Stats) : Prop where
  fits : before.Fits → after.Fits
  le : before.Fits → before.Le after

namespace Grows

theorem refl (stats : Stats) : Grows stats stats := ⟨id, fun _ => .refl _⟩

theorem trans {first second third : Stats} (left : Grows first second)
    (right : Grows second third) : Grows first third :=
  ⟨fun fits => right.fits (left.fits fits), fun fits =>
    (left.le fits).trans (right.le (left.fits fits))⟩

theorem recordSuccess (stats : Stats) (count totalBytes : Nat) :
    Grows stats (stats.recordSuccess count totalBytes) where
  fits fits := ⟨PktCounters.fits_record _ _ _, fits.dropped, fits.reasons⟩
  le fits := ⟨PktCounters.le_record fits.succeeded _ _, .refl _, fun _ => .refl _⟩

theorem recordDrop (stats : Stats) (reason : DropReason) (count totalBytes : Nat) :
    Grows stats (stats.recordDrop reason count totalBytes) := by
  constructor
  · intro fits
    refine ⟨fits.succeeded, PktCounters.fits_record _ _ _, fun other => ?_⟩
    by_cases same : other = reason
    · simpa [Stats.recordDrop, same] using PktCounters.fits_record _ _ _
    · simpa [Stats.recordDrop, same] using fits.reasons other
  · intro fits
    refine ⟨.refl _, PktCounters.le_record fits.dropped _ _, fun other => ?_⟩
    by_cases same : other = reason
    · simpa [Stats.recordDrop, same] using PktCounters.le_record (fits.reasons reason) _ _
    · simpa [Stats.recordDrop, same] using PktCounters.Le.refl _

end Grows

theorem fits_new : new.Fits :=
  have zero : (⟨0, 0, 0⟩ : PktCounters).Fits := ⟨Nat.zero_le _, Nat.zero_le _, Nat.zero_le _⟩
  ⟨zero, zero, fun _ => zero⟩

end Stats

namespace Router
open H3llo.Net H3llo.Runs

variable {Trie : Type → Type} [PrefixTrie Trie]

/-! ## The actor -/

def handleOutputBatch (routing : RoutingTable Trie) (accepts : Nat → Sender → Bool)
    (plane : DataPlane) (batch : List Packet) : DataPlane :=
  let (count, bytes) := batchStats batch
  match batch.head? with
  | none => plane
  | some first =>
      match extractDstIp first with
      | none => plane.recordDrop .invalidIpVersion count bytes
      | some dest =>
          match routing.lookup dest with
          | none => plane.recordDrop .noRoute count bytes
          | some route => (plane.sendAndRecord accepts route.tx batch count bytes).2

/-- What the actor's loop can be woken by; `none` stands for a closed channel. -/
inductive RouterInput (Trie : Type → Type) where
  | output (batch : Option (List Packet))
  | ingress (batch : Option (List Packet))
  | updateRouting (routing : RoutingTable Trie)
  | stop
  | inboxClosed
  | unexpected
  | tick (ownerOpen : Bool)

/-- `reports` are the snapshots sent to the owner, oldest first. -/
structure RouterActor (Trie : Type → Type) where
  routing : RoutingTable Trie
  plane : DataPlane
  reports : List Stats
  stopped : Bool

namespace RouterActor

def spawn (routing : RoutingTable Trie) : RouterActor Trie := ⟨routing, ⟨.new, .empty⟩, [], false⟩

def turn (inputTx : Sender) (accepts : Nat → Sender → Bool) (actor : RouterActor Trie) :
    RouterInput Trie → RouterActor Trie
  | .output none | .ingress none | .stop | .inboxClosed => { actor with stopped := true }
  | .output (some batch) =>
      { actor with plane := handleOutputBatch actor.routing accepts actor.plane batch }
  | .ingress (some batch) =>
      { actor with plane := handleIngressBatch actor.routing inputTx accepts actor.plane batch }
  | .updateRouting routing => { actor with routing }
  | .unexpected => actor
  | .tick true => { actor with reports := actor.reports ++ [actor.plane.stats] }
  -- The owner is gone, so the snapshot goes nowhere.
  | .tick false => { actor with stopped := true }

def step (inputTx : Sender) (accepts : Nat → Sender → Bool) (input : RouterInput Trie)
    (actor : RouterActor Trie) : Option (RouterActor Trie) :=
  if actor.stopped then none else some (actor.turn inputTx accepts input)

end RouterActor

namespace RouterInput

def taken : RouterInput Trie → List Packet
  | .output (some batch) | .ingress (some batch) => batch
  | .output none | .ingress none | .updateRouting _ | .stop | .inboxClosed | .unexpected
  | .tick _ => []

def routing (current : RoutingTable Trie) : RouterInput Trie → RoutingTable Trie
  | .updateRouting routing => routing
  | .output _ | .ingress _ | .stop | .inboxClosed | .unexpected | .tick _ => current

/-- For every tick that the owner hears, all that came before it; `seen` is what came first. -/
def beforeTicks (seen : List (RouterInput Trie)) :
    List (RouterInput Trie) → List (List (RouterInput Trie))
  | [] => []
  | .tick true :: rest => seen :: beforeTicks (seen ++ [.tick true]) rest
  | input :: rest => beforeTicks (seen ++ [input]) rest

end RouterInput

/-! ## One plan for a whole run -/

section Plan

variable (inputTx : Sender)

def planOutput (routing : RoutingTable Trie) (batch : List Packet) : List Handling :=
  match batch.head? with
  | none => []
  | some first =>
      match extractDstIp first with
      | none => [.drop .invalidIpVersion batch]
      | some dest =>
          match routing.lookup dest with
          | none => [.drop .noRoute batch]
          | some route => [.send route.tx batch]

def planInput (routing : RoutingTable Trie) : RouterInput Trie → List Handling
  | .output (some batch) => planOutput routing batch
  | .ingress (some batch) => plan routing inputTx batch
  | .output none | .ingress none | .updateRouting _ | .stop | .inboxClosed | .unexpected
  | .tick _ => []

def planRun (routing : RoutingTable Trie) : List (RouterInput Trie) → List Handling
  | [] => []
  | input :: rest => planInput inputTx routing input ++ planRun (input.routing routing) rest

variable (accepts : Nat → Sender → Bool)

theorem handleOutputBatch_eq (routing : RoutingTable Trie) (plane : DataPlane)
    (batch : List Packet) :
    handleOutputBatch routing accepts plane batch =
      (planOutput routing batch).foldl (perform accepts inputTx) plane := by
  unfold handleOutputBatch planOutput
  cases batch with
  | nil => rfl
  | cons first rest =>
    simp only [List.head?_cons]
    cases extractDstIp first with
    | none => rfl
    | some dest =>
      simp only
      cases routing.lookup dest with
      | none => rfl
      | some route => rfl

theorem load_planOutput (routing : RoutingTable Trie) (batch : List Packet) :
    ((planOutput routing batch).map fun handling => batchStats handling.packets).sum =
      batchStats batch := by
  unfold planOutput
  cases batch with
  | nil => rfl
  | cons first rest =>
    simp only [List.head?_cons]
    cases extractDstIp first with
    | none => simp [Handling.packets]
    | some dest =>
      simp only
      cases routing.lookup dest with
      | none => simp [Handling.packets]
      | some route => simp [Handling.packets]

theorem load_planRun (routing : RoutingTable Trie) (inputs : List (RouterInput Trie)) :
    ((planRun inputTx routing inputs).map fun handling => batchStats handling.packets).sum =
      batchStats (inputs.flatMap RouterInput.taken) := by
  induction inputs generalizing routing with
  | nil => rfl
  | cons input rest ih =>
    have now : ((planInput inputTx routing input).map fun handling =>
        batchStats handling.packets).sum =
        batchStats input.taken := by
      cases input with
      | output batch =>
        cases batch with
        | none => rfl
        | some batch => exact load_planOutput routing batch
      | ingress batch =>
        cases batch with
        | none => rfl
        | some batch => exact load_plan routing inputTx batch
      | _ => rfl
    rw [planRun, List.map_append, List.sum_append, now, ih, List.flatMap_cons, batchStats_append]

theorem plane_turn (actor : RouterActor Trie) (input : RouterInput Trie) :
    (actor.turn inputTx accepts input).plane =
      (planInput inputTx actor.routing input).foldl (perform accepts inputTx) actor.plane := by
  cases input with
  | output batch =>
    cases batch with
    | none => rfl
    | some batch => exact handleOutputBatch_eq inputTx accepts actor.routing actor.plane batch
  | ingress batch =>
    cases batch with
    | none => rfl
    | some batch => exact handleIngressBatch_eq actor.routing inputTx accepts actor.plane batch
  | tick ownerOpen => cases ownerOpen <;> rfl
  | _ => rfl

theorem routing_turn (actor : RouterActor Trie) (input : RouterInput Trie) :
    (actor.turn inputTx accepts input).routing = input.routing actor.routing := by
  cases input with
  | output batch => cases batch <;> rfl
  | ingress batch => cases batch <;> rfl
  | tick ownerOpen => cases ownerOpen <;> rfl
  | _ => rfl

theorem turn_of_step {actor after : RouterActor Trie} {input : RouterInput Trie}
    (taken : RouterActor.step inputTx accepts input actor = some after) :
    after = actor.turn inputTx accepts input := by
  unfold RouterActor.step at taken
  split at taken
  · cases taken
  · exact (Option.some.inj taken).symm

theorem plane_run {actor last : RouterActor Trie} {inputs : List (RouterInput Trie)}
    (executed : run (RouterActor.step inputTx accepts) inputs actor = some last) :
    last.plane = (planRun inputTx actor.routing inputs).foldl
      (perform accepts inputTx) actor.plane := by
  induction inputs generalizing actor with
  | nil =>
    cases executed
    rfl
  | cons input rest ih =>
    obtain ⟨next, taken, remaining⟩ := Option.bind_eq_some_iff.mp executed
    rw [ih remaining, turn_of_step inputTx accepts taken, plane_turn, routing_turn, planRun,
      List.foldl_append]

end Plan

/-! ## Reports -/

section Reports

variable {inputTx : Sender} {accepts : Nat → Sender → Bool}

theorem grows_sendAndRecord (plane : DataPlane) (tx : Sender) (packets : List Packet)
    (count totalBytes : Nat) :
    Stats.Grows plane.stats (plane.sendAndRecord accepts tx packets count totalBytes).2.stats := by
  unfold DataPlane.sendAndRecord
  simp only
  split
  · exact .recordSuccess plane.stats count totalBytes
  · exact .recordDrop plane.stats .channelClosed count totalBytes

theorem grows_perform (plane : DataPlane) (handling : Handling) :
    Stats.Grows plane.stats (perform accepts inputTx plane handling).stats := by
  cases handling with
  | drop reason packets => exact .recordDrop plane.stats reason _ _
  | send tx packets => exact grows_sendAndRecord plane tx packets _ _
  | expire packets =>
    have expired := Stats.Grows.recordDrop plane.stats .ttlExpired (batchStats packets).1
      (batchStats packets).2
    unfold perform
    simp only
    split
    · exact expired
    · exact expired.trans (.recordDrop _ .channelClosed _ _)

theorem grows_foldl (handlings : List Handling) (plane : DataPlane) :
    Stats.Grows plane.stats (handlings.foldl (perform accepts inputTx) plane).stats := by
  induction handlings generalizing plane with
  | nil => exact .refl _
  | cons handling rest ih => exact (grows_perform plane handling).trans (ih _)

theorem reports_turn (actor : RouterActor Trie) {input : RouterInput Trie}
    (quiet : input ≠ .tick true) : (actor.turn inputTx accepts input).reports = actor.reports := by
  cases input with
  | output batch => cases batch <;> rfl
  | ingress batch => cases batch <;> rfl
  | tick ownerOpen =>
    cases ownerOpen with
    | false => rfl
    | true => exact absurd rfl quiet
  | _ => rfl

structure Reported (actor : RouterActor Trie) : Prop where
  fits : actor.plane.stats.Fits
  ordered : actor.reports.Pairwise Stats.Le
  behind : ∀ report ∈ actor.reports, report.Le actor.plane.stats

theorem reported_turn {actor : RouterActor Trie} (reported : Reported actor)
    (input : RouterInput Trie) : Reported (actor.turn inputTx accepts input) := by
  have grows : Stats.Grows actor.plane.stats (actor.turn inputTx accepts input).plane.stats := by
    rw [plane_turn]
    exact grows_foldl _ _
  by_cases ticks : input = .tick true
  · subst ticks
    constructor
    · exact reported.fits
    · apply List.pairwise_append.mpr
      refine ⟨reported.ordered, List.pairwise_singleton _ _, fun report member last isLast => ?_⟩
      rw [List.mem_singleton.mp isLast]
      exact reported.behind report member
    · intro report member
      rcases List.mem_append.mp member with earlier | last
      · exact reported.behind report earlier
      · rw [List.mem_singleton.mp last]
        exact .refl _
  · constructor
    · exact grows.fits reported.fits
    · rw [reports_turn actor ticks]
      exact reported.ordered
    · rw [reports_turn actor ticks]
      intro report member
      exact (reported.behind report member).trans (grows.le reported.fits)

theorem reported_run {actor last : RouterActor Trie} {inputs : List (RouterInput Trie)}
    (reported : Reported actor)
    (executed : run (RouterActor.step inputTx accepts) inputs actor = some last) :
      Reported last := by
  have reached : Reaches (RouterActor.step inputTx accepts) (fun _ _ => True) actor last :=
    reaches_of_run (fun _ _ _ => trivial) executed
  apply reached.invariant reported
  intro before input after kept _ taken
  rw [turn_of_step inputTx accepts taken]
  exact reported_turn kept input

theorem snapshots_run {start actor last : RouterActor Trie} {seen inputs : List (RouterInput Trie)}
    (before : run (RouterActor.step inputTx accepts) seen start = some actor)
    (executed : run (RouterActor.step inputTx accepts) inputs actor = some last) :
    ∃ fresh, last.reports = actor.reports ++ fresh ∧
      List.Forall₂ (fun earlier report => ∃ ticked,
        run (RouterActor.step inputTx accepts) earlier start = some ticked ∧
          report = ticked.plane.stats) (RouterInput.beforeTicks seen inputs) fresh := by
  induction inputs generalizing actor seen with
  | nil =>
    cases executed
    exact ⟨[], (List.append_nil _).symm, .nil⟩
  | cons input rest ih =>
    obtain ⟨next, taken, remaining⟩ := Option.bind_eq_some_iff.mp executed
    have turned := turn_of_step inputTx accepts taken
    have now : run (RouterActor.step inputTx accepts) (seen ++ [input]) start = some next := by
      rw [run_append, before, Option.bind_some, run, taken]
      rfl
    obtain ⟨fresh, reports, snapshots⟩ := ih now remaining
    by_cases ticks : input = .tick true
    · subst ticks turned
      refine ⟨actor.plane.stats :: fresh, ?_, .cons ⟨actor, before, rfl⟩ snapshots⟩
      rw [reports, List.append_cons]
      rfl
    · refine ⟨fresh, by rw [reports, turned, reports_turn actor ticks], ?_⟩
      rwa [RouterInput.beforeTicks]
      exact ticks

/-- In every run each tick makes one report, the counters of that moment. The reports only grow,
and each accounts for the packets that the router took before its tick, unless an expired one found
the TUN channel closed. -/
theorem router_reports (routing : RoutingTable Trie) {inputs : List (RouterInput Trie)}
    {last : RouterActor Trie}
    (executed : run (RouterActor.step inputTx accepts) inputs (.spawn routing) = some last) :
    last.reports.Pairwise Stats.Le ∧ (∀ report ∈ last.reports, report.Le last.plane.stats) ∧
      List.Forall₂ (fun earlier report =>
        (∃ ticked, run (RouterActor.step inputTx accepts) earlier (.spawn routing) = some ticked ∧
          report = ticked.plane.stats) ∧
        (report.Below → (Accounted .new report (earlier.flatMap RouterInput.taken) ↔
          stranded accepts inputTx 0 (planRun inputTx routing earlier) = [])))
        (RouterInput.beforeTicks [] inputs) last.reports := by
  have fresh : Reported (RouterActor.spawn routing) :=
    ⟨Stats.fits_new, .nil, fun _ none => by cases none⟩
  have reported := reported_run fresh executed
  refine ⟨reported.ordered, reported.behind, ?_⟩
  have nothing : run (RouterActor.step inputTx accepts) [] (.spawn routing) =
      some (RouterActor.spawn routing) := rfl
  obtain ⟨reports, same, snapshots⟩ := snapshots_run nothing executed
  rw [same, show (RouterActor.spawn routing).reports = [] from rfl, List.nil_append]
  apply snapshots.imp
  rintro earlier report ⟨ticked, ran, rfl⟩
  refine ⟨⟨ticked, ran, rfl⟩, fun below => ?_⟩
  have counts := counts_perform accepts inputTx (planRun inputTx routing earlier) ⟨.new, .empty⟩
  rw [load_planRun] at counts
  have plane : ticked.plane = (planRun inputTx routing earlier).foldl (perform accepts inputTx)
      ⟨.new, .empty⟩ := plane_run inputTx accepts ran
  rw [plane] at below ⊢
  exact accounted_iff counts below

def sampleInputs : List (RouterInput AssocTrie) :=
  [.ingress (some sampleBatch), .updateRouting ⟨⟨[]⟩⟩, .output (some [sampleHeader]), .tick true]

def sampleLast : RouterActor AssocTrie :=
  sampleInputs.foldl (fun actor input => actor.turn ⟨0⟩ (fun _ _ => true) input)
    (.spawn sampleTable)

theorem run_sampleInputs :
    run (RouterActor.step ⟨0⟩ fun _ _ => true) sampleInputs (.spawn sampleTable) =
    some sampleLast := rfl

theorem router_reports_sample : ∃ report, sampleLast.reports = [report] ∧
    Accounted .new report (sampleBatch ++ [sampleHeader]) := by
  obtain ⟨-, -, reports⟩ := router_reports sampleTable run_sampleInputs
  have ticks : RouterInput.beforeTicks [] sampleInputs = [sampleInputs.take 3] := rfl
  rw [ticks] at reports
  cases listed : sampleLast.reports with
  | nil =>
    rw [listed] at reports
    cases reports
  | cons report others =>
    rw [listed] at reports
    cases reports with
    | cons accounts rest =>
      cases rest
      refine ⟨report, rfl, (accounts.2 ?_).mpr ?_⟩
      · have below : ∀ report ∈ sampleLast.reports, report.Below := by decide +kernel
        exact below report (by rw [listed]; exact List.mem_cons_self)
      · decide +kernel

end Reports

/-! ## Deliveries -/

section Deliveries

variable (inputTx : Sender)

def routeInput (routing : RoutingTable Trie) : RouterInput Trie → List (Sender × Packet)
  | .output (some batch) =>
      match (batch.head?.bind extractDstIp).bind routing.lookup with
      | none => []
      | some route => batch.map fun packet => (route.tx, packet)
  | .ingress (some batch) => batch.filterMap (routePacket routing inputTx)
  | .output none | .ingress none | .updateRouting _ | .stop | .inboxClosed | .unexpected
  | .tick _ => []

def routeRun (routing : RoutingTable Trie) : List (RouterInput Trie) → List (Sender × Packet)
  | [] => []
  | input :: rest => routeInput inputTx routing input ++ routeRun (input.routing routing) rest

variable {accepts : Nat → Sender → Bool} (isOpen : ∀ attempt tx, accepts attempt tx = true)
include isOpen

theorem delivered_handleOutputBatch (routing : RoutingTable Trie) (plane : DataPlane)
    (batch : List Packet) :
    (handleOutputBatch routing accepts plane batch).delivered =
      plane.delivered ++ routeInput inputTx routing (.output (some batch)) := by
  unfold handleOutputBatch routeInput
  cases batch with
  | nil => simp
  | cons first rest =>
    simp only [List.head?_cons, Option.bind_some]
    cases extractDstIp first with
    | none => simp
    | some dest =>
      simp only [Option.bind_some]
      cases routing.lookup dest with
      | none => simp
      | some route => exact DataPlane.delivered_sendAndRecord isOpen plane route.tx _ _ _

theorem delivered_turn (actor : RouterActor Trie) (input : RouterInput Trie) :
    ∃ deliveries, (actor.turn inputTx accepts input).plane.delivered =
      actor.plane.delivered ++ deliveries ∧
      SameStreams streamKey deliveries (routeInput inputTx actor.routing input) := by
  have quiet (plane : DataPlane) : plane.delivered = plane.delivered ++ [] :=
    (List.append_nil _).symm
  cases input with
  | output batch =>
    cases batch with
    | none => exact ⟨[], quiet _, .refl _⟩
    | some batch =>
      exact ⟨_, delivered_handleOutputBatch inputTx isOpen actor.routing actor.plane batch, .refl _⟩
  | ingress batch =>
    cases batch with
    | none => exact ⟨[], quiet _, .refl _⟩
    | some batch =>
      exact delivered_handleIngressBatch isOpen actor.routing inputTx actor.plane batch
  | tick ownerOpen => cases ownerOpen <;> exact ⟨[], quiet _, .refl _⟩
  | _ => exact ⟨[], quiet _, .refl _⟩

theorem delivered_run {actor last : RouterActor Trie} {inputs : List (RouterInput Trie)}
    (executed : run (RouterActor.step inputTx accepts) inputs actor = some last) :
    ∃ deliveries, last.plane.delivered = actor.plane.delivered ++ deliveries ∧
      SameStreams streamKey deliveries (routeRun inputTx actor.routing inputs) := by
  induction inputs generalizing actor with
  | nil =>
    cases executed
    exact ⟨[], (List.append_nil _).symm, .refl _⟩
  | cons input rest ih =>
    obtain ⟨next, taken, remaining⟩ := Option.bind_eq_some_iff.mp executed
    have turned := turn_of_step inputTx accepts taken
    obtain ⟨now, nowSent, nowSame⟩ := delivered_turn inputTx isOpen actor input
    obtain ⟨later, laterSent, laterSame⟩ := ih remaining
    refine ⟨now ++ later, by rw [laterSent, turned, nowSent, List.append_assoc], ?_⟩
    rw [turned, routing_turn] at laterSame
    exact nowSame.append laterSame

/-- With open channels a run delivers what its packets specify under the tables in force, and each
destination keeps its order on each channel across all batches. -/
theorem router_delivers (routing : RoutingTable Trie) {inputs : List (RouterInput Trie)}
    {last : RouterActor Trie}
    (executed : run (RouterActor.step inputTx accepts) inputs (.spawn routing) = some last) :
    last.plane.delivered.Perm (routeRun inputTx routing inputs) ∧
      ∀ tx dst, (last.plane.delivered.filter fun delivery => delivery.1 = tx ∧
        extractDstIp delivery.2 = some dst) =
        (routeRun inputTx routing inputs).filter fun delivery => delivery.1 = tx ∧
        extractDstIp delivery.2 = some dst := by
  obtain ⟨deliveries, sent, same⟩ := delivered_run inputTx isOpen executed
  have nothing : (RouterActor.spawn routing).plane.delivered = [] := rfl
  have same : SameStreams streamKey deliveries (routeRun inputTx routing inputs) := same
  rw [nothing, List.nil_append] at sent
  rw [sent]
  refine ⟨same.perm, fun tx dst => ?_⟩
  simpa only [streamKey, Prod.mk.injEq] using same (tx, some dst)

end Deliveries

theorem router_delivers_sample : sampleLast.plane.delivered.Perm
    [(⟨1⟩, (decrementTtl sampleHeader).2), (⟨0⟩, (decrementTtl (sampleHeader.set 8 1)).2)] := by
  have routed : routeRun ⟨0⟩ sampleTable sampleInputs =
      [(⟨1⟩, (decrementTtl sampleHeader).2), (⟨0⟩, (decrementTtl (sampleHeader.set 8 1)).2)] := by
    decide +kernel
  have delivers := router_delivers ⟨0⟩ (fun _ _ => rfl) sampleTable run_sampleInputs
  exact routed ▸ delivers.1

/-! ## Channels that may be closed -/

section Placed

variable (inputTx : Sender) (accepts : Nat → Sender → Bool)

/-- Some of the planned deliveries are made, in order, and all of them if every channel is open. -/
def Places (planned : List (Sender × Packet)) (before after : DataPlane) : Prop :=
  ∃ placed, after.delivered = before.delivered ++ placed ∧ placed.Sublist planned ∧
    ((∀ attempt tx, accepts attempt tx = true) → placed = planned)

def Handling.deliveries : Handling → List (Sender × Packet)
  | .drop _ _ => []
  | .send tx packets => packets.map fun packet => (tx, packet)
  | .expire packets => packets.map fun packet => (inputTx, packet)

theorem Places.refl (plane : DataPlane) : Places accepts [] plane plane :=
  ⟨[], (List.append_nil _).symm, .slnil, fun _ => rfl⟩

theorem Places.trans {early late : List (Sender × Packet)} {first second third : DataPlane}
    (left : Places accepts early first second) (right : Places accepts late second third) :
    Places accepts (early ++ late) first third := by
  obtain ⟨now, nowSent, nowPart, nowAll⟩ := left
  obtain ⟨later, laterSent, laterPart, laterAll⟩ := right
  refine ⟨now ++ later, by rw [laterSent, nowSent, List.append_assoc], nowPart.append laterPart,
    fun isOpen => ?_⟩
  rw [nowAll isOpen, laterAll isOpen]

theorem places_sendWithBackpressure (plane : DataPlane) (tx : Sender) (batch : List Packet) :
    Places accepts (batch.map fun packet => (tx, packet)) plane
      (plane.sendWithBackpressure accepts tx batch).2 := by
  cases isOpen : accepts plane.outlet.attempts tx with
  | true =>
    refine ⟨batch.map fun packet => (tx, packet), ?_, List.Sublist.refl _, fun _ => rfl⟩
    simp [DataPlane.sendWithBackpressure, Outlet.send, isOpen, DataPlane.delivered]
  | false =>
    refine ⟨[], ?_, List.nil_sublist _, fun allOpen => ?_⟩
    · simp [DataPlane.sendWithBackpressure, Outlet.send, isOpen, DataPlane.delivered]
    · rw [allOpen] at isOpen
      cases isOpen

theorem places_perform (plane : DataPlane) (handling : Handling) :
    Places accepts (handling.deliveries inputTx) plane
      (perform accepts inputTx plane handling) := by
  cases handling with
  | drop reason packets => exact Places.refl accepts plane
  | send tx packets =>
    have sent := places_sendWithBackpressure accepts plane tx packets
    unfold perform DataPlane.sendAndRecord
    simp only
    split
    · exact sent
    · exact sent
  | expire packets =>
    have sent := places_sendWithBackpressure accepts
      (plane.recordDrop .ttlExpired (batchStats packets).1 (batchStats packets).2) inputTx packets
    unfold perform
    simp only
    split
    · exact sent
    · exact sent

theorem places_foldl (handlings : List Handling) (plane : DataPlane) :
    Places accepts (handlings.flatMap (Handling.deliveries inputTx)) plane
      (handlings.foldl (perform accepts inputTx) plane) := by
  induction handlings generalizing plane with
  | nil => exact Places.refl accepts plane
  | cons handling rest ih =>
    exact (places_perform inputTx accepts plane handling).trans accepts (ih _)

theorem planned_perm (routing : RoutingTable Trie) (input : RouterInput Trie) :
    ((planInput inputTx routing input).flatMap (Handling.deliveries inputTx)).Perm
      (routeInput inputTx routing input) := by
  -- open channels show all of the plan
  have isOpen (attempt : Nat) (tx : Sender) : (fun _ _ => true : Nat → Sender → Bool) attempt tx =
      true := rfl
  obtain ⟨placed, sent, _, all⟩ := places_foldl inputTx (fun _ _ => true)
    (planInput inputTx routing input) ⟨.new, .empty⟩
  obtain ⟨deliveries, delivered, same⟩ := delivered_turn inputTx isOpen (.spawn routing) input
  rw [plane_turn] at delivered
  have equal := List.append_cancel_left (sent.symm.trans delivered)
  rw [← all isOpen, equal]
  exact same.perm

theorem placed_turn (actor : RouterActor Trie) (input : RouterInput Trie) :
    ∃ placed, (actor.turn inputTx accepts input).plane.delivered = actor.plane.delivered ++ placed ∧
      placed.Subperm (routeInput inputTx actor.routing input) := by
  obtain ⟨placed, sent, part, _⟩ := places_foldl inputTx accepts
    (planInput inputTx actor.routing input) actor.plane
  rw [plane_turn]
  exact ⟨placed, sent, part.subperm.trans (planned_perm inputTx actor.routing input).subperm⟩

end Placed

end Router
end H3llo
