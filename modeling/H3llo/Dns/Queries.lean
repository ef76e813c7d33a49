import H3llo.Dns.Actor
import H3llo.Basis.Runs

/-! No query of the resolver is lost or sent twice.

A query is queued, or it is pending with one task, or it was answered since its
host was last registered. The answered queries are a history next to the actor;
nothing in the actor reads them.
-/

set_option autoImplicit false

namespace H3llo.Dns
open H3llo.Net H3llo.Runs

/-! ## What the branches do to the queries -/

namespace DnsActor

variable (tuning : DnsTuning) (actor : DnsActor) (now : Nat)

theorem mem_queuedQueries_triggerRefresh (query : DnsQuery) :
    query ∈ (actor.triggerRefresh tuning now).queuedQueries ↔
      query ∈ actor.queuedQueries ∨
        query ∉ actor.pendingQueries ∧
          ∃ entry, actor.hostnames.lookup query.hostname = some entry ∧
            isDue now query.hostname entry = true := by
  obtain ⟨host, recordType⟩ := query
  have types : recordType ∈ ({RecordType.a, RecordType.aaaa} : Finset RecordType) := by
    cases recordType <;> decide
  simp only [triggerRefresh, Finset.mem_union, Finset.mem_filter, Finset.mem_image,
    Finset.mem_product, Prod.exists, DnsQuery.mk.injEq, Finmap.mem_keys, Option.any_eq_true]
  constructor
  · rintro (queued | ⟨⟨_, _, ⟨⟨_, due⟩, _⟩, rfl, rfl⟩, idle⟩)
    · exact .inl queued
    · exact .inr ⟨idle, due⟩
  · rintro (queued | ⟨idle, entry, found, due⟩)
    · exact .inl queued
    · exact .inr
        ⟨⟨host, recordType, ⟨⟨Finmap.mem_of_lookup_eq_some found, entry, found, due⟩, types⟩, rfl,
        rfl⟩, idle⟩

@[simp] theorem mem_hostnames_triggerRefresh (host : String) :
    host ∈ (actor.triggerRefresh tuning now).hostnames ↔ host ∈ actor.hostnames := by
  rw [triggerRefresh, HashMap.mem_map]

@[simp] theorem mem_hostnames_handleSetHostnames (hosts : Finset String) (host : String) :
    host ∈ (actor.handleSetHostnames tuning now hosts).hostnames ↔ host ∈ hosts := by
  simp [handleSetHostnames, recordLiterals, setHostnames]

theorem mem_queuedQueries_handleSetHostnames (hosts : Finset String) (query : DnsQuery) :
    query ∈ (actor.handleSetHostnames tuning now hosts).queuedQueries ↔
      query ∈ actor.queuedQueries ∧ query.hostname ∈ hosts ∨
        query ∉ actor.pendingQueries ∧ query.hostname ∈ hosts ∧ isLiteral query.hostname = false ∧
          ∀ entry, actor.hostnames.lookup query.hostname = some entry →
            entry.nextRefreshAt ≤ now := by
  rw [handleSetHostnames, mem_queuedQueries_triggerRefresh]
  simp only [recordLiterals, setHostnames, Finset.mem_filter, HashMap.lookup_map,
    HashMap.lookup_ofKeys]
  refine or_congr Iff.rfl (and_congr Iff.rfl ?_)
  by_cases listed : query.hostname ∈ hosts
  · cases parsed : parseIpAddr query.hostname with
    | some ip => simp [isDue, isLiteral, parsed]
    | none =>
      cases before : actor.hostnames.lookup query.hostname <;>
        simp [isDue, isLiteral, parsed, listed]
  · simp [listed]

/-- The same queries and registrations; addresses, timers and the dirty flag may differ. -/
structure SameQueries (before after : DnsActor) : Prop where
  queuedQueries : after.queuedQueries = before.queuedQueries
  pendingQueries : after.pendingQueries = before.pendingQueries
  tasks : after.tasks = before.tasks
  hostnames : ∀ host, host ∈ after.hostnames ↔ host ∈ before.hostnames

theorem SameQueries.refl : SameQueries actor actor := ⟨rfl, rfl, rfl, fun _ => Iff.rfl⟩

theorem sameQueries_expireStale : SameQueries actor (actor.expireStale now) :=
  ⟨rfl, rfl, rfl, fun host => HashMap.mem_map _ _ host⟩

theorem sameQueries_emitSnapshot : SameQueries actor actor.emitSnapshot.1 := by
  unfold emitSnapshot
  split
  · exact ⟨rfl, rfl, rfl, fun _ => Iff.rfl⟩
  · exact .refl actor

theorem sameQueries_recordIps (host : String) (records : HashMap IpAddr UInt32) :
    SameQueries actor (actor.recordIps tuning now host records) := by
  unfold recordIps
  split
  next => exact .refl actor
  next entry found =>
    refine ⟨rfl, rfl, rfl, fun other => ?_⟩
    rw [Finmap.mem_insert]
    refine ⟨?_, .inr⟩
    rintro (rfl | member)
    · exact Finmap.mem_of_lookup_eq_some found
    · exact member

theorem sameQueries_handleResponse (message : Message) (query : DnsQuery) :
    SameQueries actor (actor.handleResponse tuning now message query) := by
  unfold handleResponse
  simp only
  split
  · exact .refl actor
  · exact sameQueries_recordIps tuning actor now query.hostname _

variable {tuning actor now}

theorem mem_hostnames_iterate {input : DnsInput} (other : ∀ hosts, input ≠ .setHostnames hosts)
    {after : DnsActor} {emitted : Option DnsSnapshot}
    (taken : actor.iterate tuning now input = some (after, emitted)) (host : String) :
    host ∈ after.hostnames ↔ host ∈ actor.hostnames := by
  obtain ⟨middle, selected, sent⟩ := Option.map_eq_some_iff.mp taken
  obtain rfl : middle.emitSnapshot.1 = after := congrArg Prod.fst sent
  rw [middle.sameQueries_emitSnapshot.hostnames host]
  cases input with
  | setHostnames hosts => exact absurd rfl (other hosts)
  | joined query result =>
    simp only [select, Option.ite_none_right_eq_some, Option.some.injEq] at selected
    obtain ⟨_, rfl⟩ := selected
    unfold handleQueryResult
    simp only
    split
    next => rfl
    next =>
      cases result with
      | none => rfl
      | some message => exact (sameQueries_handleResponse tuning _ now message query).hostnames host
  | refresh =>
    cases selected
    rw [(sameQueries_expireStale _ now).hostnames, mem_hostnames_triggerRefresh]
  | pace query =>
    simp only [select, Option.ite_none_right_eq_some, Option.some.injEq] at selected
    obtain ⟨_, rfl⟩ := selected
    rfl

end DnsActor

/-! ## Answered queries -/

/-- The actor next to the queries answered since their host was last registered. -/
structure Resolution where
  actor : DnsActor
  answered : Finset DnsQuery

namespace Resolution

def new : Resolution := ⟨DnsActor.new, ∅⟩

/-- An update drops the answers of the hosts it registers or unregisters; the
result of a task counts as an answer if its host is registered. -/
def answers (state : Resolution) : DnsInput → Finset DnsQuery
  | .setHostnames hosts =>
      state.answered.filter fun query => query.hostname ∈ hosts ∧
        query.hostname ∈ state.actor.hostnames
  | .joined query (some _) =>
      if query.hostname ∈ state.actor.hostnames then insert query state.answered else state.answered
  | .joined _ none | .refresh | .pace _ => state.answered

/-- One iteration of the loop at the given time. A panicked task ends the actor,
so it is no iteration. -/
def step (tuning : DnsTuning) (action : Nat × DnsInput) (state : Resolution) : Option Resolution :=
  (state.actor.iterate tuning action.1 action.2).map fun (actor, _) =>
    ⟨actor, state.answers action.2⟩

structure Tracked (state : Resolution) : Prop where
  literals : state.actor.LiteralsApart
  apart : Disjoint state.actor.queuedQueries state.actor.pendingQueries
  tasks : state.actor.tasks = state.actor.pendingQueries.val
  queued : ∀ query ∈ state.actor.queuedQueries, query.hostname ∈ state.actor.hostnames
  covered : ∀ query : DnsQuery, query.hostname ∈ state.actor.hostnames →
    DnsActor.isLiteral query.hostname = false →
    query ∈ state.actor.queuedQueries ∨ query ∈ state.actor.pendingQueries ∨ query ∈ state.answered

namespace Tracked

theorem new : Resolution.new.Tracked where
  literals := .new
  apart := by simp [Resolution.new, DnsActor.new]
  tasks := rfl
  queued query member := absurd member (Finset.notMem_empty query)
  covered query registered := absurd registered Finmap.notMem_empty

variable {actor : DnsActor} {answered : Finset DnsQuery} (tracked : Tracked ⟨actor, answered⟩)
include tracked

theorem congr {after : DnsActor} (same : actor.SameQueries after) (literals : after.LiteralsApart) :
    Tracked ⟨after, answered⟩ where
  literals := literals
  apart := by
    rw [same.queuedQueries, same.pendingQueries]
    exact tracked.apart
  tasks := by
    rw [same.tasks, same.pendingQueries]
    exact tracked.tasks
  queued query member := by
    rw [same.queuedQueries] at member
    exact (same.hostnames query.hostname).mpr (tracked.queued query member)
  covered query registered named := by
    rw [same.queuedQueries, same.pendingQueries]
    exact tracked.covered query ((same.hostnames query.hostname).mp registered) named

/-- A pending query is not queued again, and nothing leaves the queue. -/
theorem triggerRefresh (tuning : DnsTuning) (now : Nat) :
    Tracked ⟨actor.triggerRefresh tuning now, answered⟩ where
  literals := tracked.literals.triggerRefresh tuning now
  apart := by
    rw [Finset.disjoint_left]
    intro query queued pending
    rcases (actor.mem_queuedQueries_triggerRefresh tuning now query).mp queued with
      before | ⟨idle, _⟩
    · exact Finset.disjoint_left.mp tracked.apart before pending
    · exact idle pending
  tasks := tracked.tasks
  queued query member := by
    rw [DnsActor.mem_hostnames_triggerRefresh]
    rcases (actor.mem_queuedQueries_triggerRefresh tuning now query).mp member with
      before | ⟨_, entry, found, _⟩
    · exact tracked.queued query before
    · exact Finmap.mem_of_lookup_eq_some found
  covered query registered named := by
    rw [DnsActor.mem_hostnames_triggerRefresh] at registered
    rw [DnsActor.mem_queuedQueries_triggerRefresh]
    exact (tracked.covered query registered named).imp_left .inl

theorem handleSetHostnames (tuning : DnsTuning) (now : Nat) (hosts : Finset String)
    (literals : (actor.handleSetHostnames tuning now hosts).LiteralsApart) :
    Tracked ⟨actor.handleSetHostnames tuning now hosts,
      answers ⟨actor, answered⟩ (.setHostnames hosts)⟩ where
  literals := literals
  apart := by
    rw [Finset.disjoint_left]
    intro query queued pending
    rcases (actor.mem_queuedQueries_handleSetHostnames tuning now hosts query).mp queued with
      ⟨before, _⟩ | ⟨idle, _⟩
    · exact Finset.disjoint_left.mp tracked.apart before pending
    · exact idle pending
  tasks := tracked.tasks
  queued query member := by
    rw [DnsActor.mem_hostnames_handleSetHostnames]
    rcases (actor.mem_queuedQueries_handleSetHostnames tuning now hosts query).mp member with
      ⟨_, listed⟩ | ⟨_, listed, _⟩
    · exact listed
    · exact listed
  covered query registered named := by
    rw [DnsActor.mem_hostnames_handleSetHostnames] at registered
    rw [DnsActor.mem_queuedQueries_handleSetHostnames]
    -- a host that stays keeps what covered it; a new one has no timer yet and is due
    by_cases known : query.hostname ∈ actor.hostnames
    · rcases tracked.covered query known named with queued | pending | answer
      · exact .inl (.inl ⟨queued, registered⟩)
      · exact .inr (.inl pending)
      · exact .inr (.inr (Finset.mem_filter.mpr ⟨answer, registered, known⟩))
    · by_cases pending : query ∈ actor.pendingQueries
      · exact .inr (.inl pending)
      · refine .inl (.inr ⟨pending, registered, named, fun entry found => ?_⟩)
        exact absurd (Finmap.mem_of_lookup_eq_some found) known

theorem spawnQuery {query : DnsQuery} (queued : query ∈ actor.queuedQueries)
    (literals : (actor.spawnQuery query).LiteralsApart) :
    Tracked ⟨actor.spawnQuery query, answered⟩ := by
  have idle : query ∉ actor.pendingQueries := Finset.disjoint_left.mp tracked.apart queued
  refine ⟨literals, ?_, ?_, fun other member => tracked.queued other
    (Finset.mem_of_mem_erase member), ?_⟩
  · rw [Finset.disjoint_left]
    intro other left pending
    obtain ⟨different, left⟩ := Finset.mem_erase.mp left
    rcases Finset.mem_insert.mp pending with rfl | pending
    · exact different rfl
    · exact Finset.disjoint_left.mp tracked.apart left pending
  · change query ::ₘ actor.tasks = (insert query actor.pendingQueries).val
    rw [Finset.insert_val_of_notMem idle, tracked.tasks]
  · intro other registered named
    by_cases same : other = query
    · exact .inr (.inl (Finset.mem_insert.mpr (.inl same)))
    · rcases tracked.covered other registered named with left | pending | answer
      · exact .inl (Finset.mem_erase.mpr ⟨same, left⟩)
      · exact .inr (.inl (Finset.mem_insert_of_mem pending))
      · exact .inr (.inr answer)

/-- A joined task leaves the pending set; its query is answered, or its host is gone. -/
theorem settled {query : DnsQuery} {answered' : Finset DnsQuery} (more : answered ⊆ answered')
    (settles : query.hostname ∈ actor.hostnames → query ∈ answered') :
    Tracked ⟨{ actor with
      tasks := actor.tasks.erase query
      pendingQueries := actor.pendingQueries.erase query }, answered'⟩ where
  literals := ⟨tracked.literals.queued,
    fun other member => tracked.literals.tasks other (Multiset.mem_of_mem_erase member),
      tracked.literals.recorded⟩
  apart := tracked.apart.mono_right (Finset.erase_subset query actor.pendingQueries)
  tasks := by
    rw [tracked.tasks]
    exact (Finset.erase_val actor.pendingQueries query).symm
  queued := tracked.queued
  covered other registered named := by
    by_cases same : other = query
    · subst same
      exact .inr (.inr (settles registered))
    · rcases tracked.covered other registered named with queued | pending | answer
      · exact .inl queued
      · exact .inr (.inl (Finset.mem_erase.mpr ⟨same, pending⟩))
      · exact .inr (.inr (more answer))

theorem requeued {query : DnsQuery} (running : query ∈ actor.tasks)
    (registered : query.hostname ∈ actor.hostnames) :
    Tracked ⟨{ actor with
      tasks := actor.tasks.erase query
      pendingQueries := actor.pendingQueries.erase query
      queuedQueries := insert query actor.queuedQueries }, answered⟩ where
  literals := by
    refine ⟨fun other member => ?_, fun other member => ?_, tracked.literals.recorded⟩
    · rcases Finset.mem_insert.mp member with rfl | member
      · exact tracked.literals.tasks other running
      · exact tracked.literals.queued other member
    · exact tracked.literals.tasks other (Multiset.mem_of_mem_erase member)
  apart := by
    rw [Finset.disjoint_insert_left]
    exact ⟨Finset.notMem_erase query _, tracked.apart.mono_right
      (Finset.erase_subset query actor.pendingQueries)⟩
  tasks := by
    rw [tracked.tasks]
    exact (Finset.erase_val actor.pendingQueries query).symm
  queued other member := by
    rcases Finset.mem_insert.mp member with rfl | member
    · exact registered
    · exact tracked.queued other member
  covered other known named := by
    by_cases same : other = query
    · exact .inl (Finset.mem_insert.mpr (.inl same))
    · rcases tracked.covered other known named with queued | pending | answer
      · exact .inl (Finset.mem_insert_of_mem queued)
      · exact .inr (.inl (Finset.mem_erase.mpr ⟨same, pending⟩))
      · exact .inr (.inr answer)

theorem handleQueryResult (tuning : DnsTuning) (now : Nat) {query : DnsQuery}
    (running : query ∈ actor.tasks) (result : Option Message)
    (literals : (DnsActor.handleQueryResult tuning { actor with tasks := actor.tasks.erase query }
      now query result).LiteralsApart) :
    Tracked ⟨DnsActor.handleQueryResult tuning { actor with tasks := actor.tasks.erase query } now
      query result,
      answers ⟨actor, answered⟩ (.joined query result)⟩ := by
  by_cases registered : query.hostname ∈ actor.hostnames
  · cases result with
    | none =>
      simp only [DnsActor.handleQueryResult, registered, not_true, if_false, answers]
      exact tracked.requeued running registered
    | some message =>
      simp only [DnsActor.handleQueryResult, registered, not_true, if_false, if_true,
        answers] at literals ⊢
      have settled := tracked.settled (Finset.subset_insert query answered) fun _ =>
        Finset.mem_insert_self query answered
      exact settled.congr (DnsActor.sameQueries_handleResponse tuning _ now message query) literals
  · have unanswered : answers ⟨actor, answered⟩ (.joined query result) = answered := by
      cases result <;> simp [answers, registered]
    simp only [DnsActor.handleQueryResult, registered, not_false_iff, if_true, unanswered]
    exact tracked.settled (Finset.Subset.refl answered) fun known => absurd known registered

theorem select {tuning : DnsTuning} {now : Nat} {input : DnsInput} {after : DnsActor}
    (taken : actor.select tuning now input = some after) :
    Tracked ⟨after, answers ⟨actor, answered⟩ input⟩ := by
  have literals := tracked.literals.select taken
  cases input with
  | setHostnames hosts =>
    cases taken
    exact tracked.handleSetHostnames tuning now hosts literals
  | joined query result =>
    simp only [DnsActor.select, Option.ite_none_right_eq_some, Option.some.injEq] at taken
    obtain ⟨running, rfl⟩ := taken
    exact tracked.handleQueryResult tuning now running result literals
  | refresh =>
    cases taken
    exact (tracked.triggerRefresh tuning now).congr
      (DnsActor.sameQueries_expireStale _ now) literals
  | pace query =>
    simp only [DnsActor.select, Option.ite_none_right_eq_some, Option.some.injEq] at taken
    obtain ⟨queued, rfl⟩ := taken
    exact tracked.spawnQuery queued literals

end Tracked

theorem Tracked.step {tuning : DnsTuning} {action : Nat × DnsInput} {before after : Resolution}
    (tracked : before.Tracked)
    (taken : step tuning action before = some after) : after.Tracked := by
  obtain ⟨⟨actor, emitted⟩, iterated, rfl⟩ := Option.map_eq_some_iff.mp taken
  obtain ⟨middle, selected, sent⟩ := Option.map_eq_some_iff.mp iterated
  obtain rfl : middle.emitSnapshot.1 = actor := congrArg Prod.fst sent
  exact (tracked.select selected).congr middle.sameQueries_emitSnapshot
    (tracked.literals.iterate iterated)

end Resolution

/-- Between any two iterations of the loop, whatever the clock shows: nothing queued
is pending, tasks and pending queries are the same, only names of registered hosts
are queued, and no record type of a registered name is left out. -/
theorem queries_tracked (tuning : DnsTuning) {state : Resolution}
    (reached : Reaches (Resolution.step tuning) (fun _ _ => True) Resolution.new state) :
    Disjoint state.actor.queuedQueries state.actor.pendingQueries ∧
      (∀ query ∈ state.actor.pendingQueries, state.actor.tasks.count query = 1) ∧
      (∀ query ∈ state.actor.tasks, query ∈ state.actor.pendingQueries) ∧
      (∀ query ∈ state.actor.queuedQueries,
        query.hostname ∈ state.actor.hostnames ∧ DnsActor.isLiteral query.hostname = false) ∧
      ∀ host ∈ state.actor.hostnames, DnsActor.isLiteral host = false → ∀ recordType,
        ⟨host, recordType⟩ ∈ state.actor.queuedQueries ∨
        ⟨host, recordType⟩ ∈ state.actor.pendingQueries ∨
          ⟨host, recordType⟩ ∈ state.answered := by
  have tracked : state.Tracked := reached.invariant .new fun before action after kept _ taken =>
    kept.step taken
  refine ⟨tracked.apart, fun query pending => ?_, fun query running => ?_,
    fun query queued => ?_, ?_⟩
  · rw [tracked.tasks]
    exact Multiset.count_eq_one_of_mem state.actor.pendingQueries.nodup pending
  · rw [tracked.tasks] at running
    exact running
  · have named := tracked.literals.queued query queued
    exact ⟨tracked.queued query queued, by simp [DnsActor.isLiteral, named]⟩
  · intro host registered named recordType
    exact tracked.covered ⟨host, recordType⟩ registered named

def reregistered : List (Nat × DnsInput) :=
  [(0, .setHostnames {"node"}), (1, .pace ⟨"node", .a⟩), (2, .setHostnames ∅),
    (3, .setHostnames {"node"})]

theorem queries_tracked_reregistered :
    ∃ state, Reaches (Resolution.step ⟨nanosPerSec, nanosPerSec⟩)
      (fun _ _ => True) Resolution.new state ∧
      ⟨"node", .a⟩ ∈ state.actor.pendingQueries ∧ state.actor.tasks.count ⟨"node", .a⟩ = 1 ∧
      (⟨"node", .aaaa⟩ ∈ state.actor.queuedQueries ∨ ⟨"node", .aaaa⟩ ∈ state.actor.pendingQueries ∨
        ⟨"node", .aaaa⟩ ∈ state.answered) := by
  have executed : (run (Resolution.step ⟨nanosPerSec, nanosPerSec⟩) reregistered Resolution.new).any
      (fun state =>
      decide (⟨"node", .a⟩ ∈ state.actor.pendingQueries ∧ "node" ∈ state.actor.hostnames)) =
        true := by decide +kernel
  obtain ⟨state, executed, facts⟩ := (Option.any_eq_true ..).mp executed
  obtain ⟨pending, registered⟩ := of_decide_eq_true facts
  have reached : Reaches (Resolution.step ⟨nanosPerSec, nanosPerSec⟩)
      (fun _ _ => True) Resolution.new state :=
    reaches_of_run (fun _ _ _ => trivial) executed
  obtain ⟨_, single, _, _, covered⟩ := queries_tracked _ reached
  exact ⟨state, reached, pending, single _ pending,
    covered "node" registered (by decide +kernel) .aaaa⟩

end H3llo.Dns
