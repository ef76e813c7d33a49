import H3llo.Basis.HashMap
import H3llo.Net.AddressText
import Mathlib.Data.Finset.Prod

/-! The resolver actor: registered hostnames, their addresses and the query pipeline.

Times are nanoseconds of a monotone clock, one reading for each iteration of the
loop. Loops over hash maps touch each entry on its own, so they are operations on
the whole map.
-/

set_option autoImplicit false

namespace H3llo.Dns
open H3llo.Net

inductive RecordType where | a | aaaa
  deriving DecidableEq, Repr

structure DnsQuery where
  hostname : String
  recordType : RecordType
  deriving DecidableEq, Repr

structure HostnameState where
  /-- Resolved addresses with their expiration times. -/
  ips : HashMap IpAddr Nat
  nextRefreshAt : Nat

structure DnsTuning where
  refreshInterval : Nat
  minTtl : Nat
  deriving DecidableEq, Repr

structure DnsActor where
  hostnames : HashMap String HostnameState
  queuedQueries : Finset DnsQuery
  /-- Queries of the tasks that run or have finished and are not joined yet. -/
  tasks : Multiset DnsQuery
  pendingQueries : Finset DnsQuery
  dirty : Bool

abbrev DnsSnapshot := HashMap String (Finset IpAddr)

/-! ## Responses -/

inductive ResponseCode where | noError | nxDomain | refused | other
  deriving DecidableEq, Repr

inductive RData where
  | a (addr : BitVec 32)
  | aaaa (addr : BitVec 128)
  | other
  deriving DecidableEq, Repr

structure Record where
  ttl : UInt32
  data : RData
  deriving DecidableEq, Repr

structure Message where
  responseCode : ResponseCode
  answers : List Record
  deriving DecidableEq, Repr

def RData.recordType : RData → Option RecordType
  | .a _ => some .a
  | .aaaa _ => some .aaaa
  | .other => none

def Record.addr (expected : RecordType) (record : Record) : Option IpAddr :=
  match record.data, expected with
  | .a addr, .a => some (.v4 addr)
  | .aaaa addr, .aaaa => some (.v6 addr)
  | _, _ => none

/-- Answers of the expected type; the first TTL of an address counts. -/
def extractRecords (message : Message) (expected : RecordType) : HashMap IpAddr UInt32 :=
  message.answers.foldl (fun records answer =>
    match answer.addr expected with
    | none => records
    | some ip => if ip ∈ records then records else records.insert ip answer.ttl) ∅

/-! ## State changes -/

def nanosPerSec : Nat := 1000000000

namespace DnsActor

def new : DnsActor := ⟨∅, ∅, 0, ∅, false⟩

def isLiteral (host : String) : Bool := (parseIpAddr host).isSome

def setHostnames (actor : DnsActor) (now : Nat) (hosts : Finset String) : DnsActor :=
  { actor with
    -- A host that stays keeps its addresses and its timer.
    hostnames := HashMap.ofKeys hosts fun host => (actor.hostnames.lookup host).getD ⟨∅, now⟩
    queuedQueries := actor.queuedQueries.filter fun query => query.hostname ∈ hosts
    dirty := actor.dirty || decide (actor.hostnames.keys ≠ hosts) }

def expiresAt (tuning : DnsTuning) (now : Nat) (ttl : UInt32) : Nat :=
  now + max (ttl.toNat * nanosPerSec) tuning.minTtl

/-- Record addresses for a registered host; known ones get a new expiration time. -/
def recordIps (tuning : DnsTuning) (actor : DnsActor) (now : Nat) (host : String)
    (records : HashMap IpAddr UInt32) : DnsActor :=
  match actor.hostnames.lookup host with
  | none => actor
  | some entry =>
      { actor with
        hostnames := actor.hostnames.insert host
          { entry with ips := records.map (fun _ ttl => expiresAt tuning now ttl) ∪ entry.ips }
        dirty := actor.dirty || decide (¬ records.keys ⊆ entry.ips.keys) }

def recordLiterals (tuning : DnsTuning) (actor : DnsActor) (now : Nat)
    (hosts : Finset String) : DnsActor :=
  { actor with
    hostnames := actor.hostnames.map fun host entry =>
      match parseIpAddr host with
      | none => entry
      | some ip =>
          if host ∈ hosts then
            { entry with ips := entry.ips.insert ip (expiresAt tuning now 0xFFFFFFFF) }
          else entry }

def isDue (now : Nat) (host : String) (entry : HostnameState) : Bool :=
  !isLiteral host && decide (entry.nextRefreshAt ≤ now)

def triggerRefresh (tuning : DnsTuning) (actor : DnsActor) (now : Nat) : DnsActor :=
  let due := actor.hostnames.keys.filter fun host =>
    (actor.hostnames.lookup host).any (isDue now host)
  let queries := (due ×ˢ {RecordType.a, RecordType.aaaa}).image fun pair => ⟨pair.1, pair.2⟩
  { actor with
    hostnames := actor.hostnames.map fun host entry =>
      -- The timer advances even if both queries are still in flight.
      if isDue now host entry then
        { entry with nextRefreshAt := now + tuning.refreshInterval }
      else entry
    queuedQueries := actor.queuedQueries ∪ queries.filter fun query =>
      query ∉ actor.pendingQueries }

/-- Registration update: literals are recorded at once, and a snapshot is always due. -/
def handleSetHostnames (tuning : DnsTuning) (actor : DnsActor) (now : Nat)
    (hosts : Finset String) : DnsActor :=
  let actor := recordLiterals tuning (actor.setHostnames now hosts) now hosts
  triggerRefresh tuning { actor with dirty := true } now

def expireStale (actor : DnsActor) (now : Nat) : DnsActor :=
  { actor with
    hostnames := actor.hostnames.map fun _ entry =>
      { entry with ips := entry.ips.retain fun _ expires => !decide (expires ≤ now) }
    dirty := actor.dirty ||
      actor.hostnames.any fun _ entry => entry.ips.any fun _ expires => decide (expires ≤ now) }

def spawnQuery (actor : DnsActor) (query : DnsQuery) : DnsActor :=
  { actor with
    queuedQueries := actor.queuedQueries.erase query
    tasks := query ::ₘ actor.tasks
    pendingQueries := insert query actor.pendingQueries }

def handleResponse (tuning : DnsTuning) (actor : DnsActor) (now : Nat) (message : Message)
    (query : DnsQuery) : DnsActor :=
  let records := extractRecords message query.recordType
  -- An answer of other record types only is logged and dropped.
  if message.responseCode = .noError ∧ records.keys = ∅ ∧
      ∃ answer ∈ message.answers, answer.data.recordType ≠ some query.recordType then actor
  else recordIps tuning actor now query.hostname records

def handleQueryResult (tuning : DnsTuning) (actor : DnsActor) (now : Nat) (query : DnsQuery)
    (result : Option Message) : DnsActor :=
  let actor := { actor with pendingQueries := actor.pendingQueries.erase query }
  if query.hostname ∉ actor.hostnames then actor
  else
    match result with
    | some message => handleResponse tuning actor now message query
    | none => { actor with queuedQueries := insert query actor.queuedQueries }

def snapshot (actor : DnsActor) : DnsSnapshot := actor.hostnames.map fun _ entry => entry.ips.keys

def emitSnapshot (actor : DnsActor) : DnsActor × Option DnsSnapshot :=
  if actor.dirty then ({ actor with dirty := false }, some actor.snapshot) else (actor, none)

end DnsActor

/-! ## The loop -/

inductive DnsInput where
  | setHostnames (hosts : Finset String)
  /-- A finished task is joined; `none` is a failed query. -/
  | joined (query : DnsQuery) (result : Option Message)
  | refresh
  /-- The pacing timer takes one of the queued queries. -/
  | pace (query : DnsQuery)

def DnsActor.select (tuning : DnsTuning) (now : Nat) (actor : DnsActor) : DnsInput → Option DnsActor
  | .setHostnames hosts => some (actor.handleSetHostnames tuning now hosts)
  | .joined query result =>
      if query ∈ actor.tasks then
        some ({ actor with tasks := actor.tasks.erase query }.handleQueryResult tuning now
          query result)
      else none
  | .refresh => some ((actor.triggerRefresh tuning now).expireStale now)
  | .pace query => if query ∈ actor.queuedQueries then some (actor.spawnQuery query) else none

/-- One iteration: a branch, then a snapshot if anything changed. -/
def DnsActor.iterate (tuning : DnsTuning) (now : Nat) (actor : DnsActor) (input : DnsInput) :
    Option (DnsActor × Option DnsSnapshot) :=
  (actor.select tuning now input).map DnsActor.emitSnapshot

theorem DnsActor.iterate_setHostnames (tuning : DnsTuning) (now : Nat) (actor : DnsActor)
    (hosts : Finset String) :
    actor.iterate tuning now (.setHostnames hosts) =
      some ({ actor.handleSetHostnames tuning now hosts with dirty := false },
        some (actor.handleSetHostnames tuning now hosts).snapshot) := rfl

def DnsActor.knownIps (actor : DnsActor) (host : String) : Finset IpAddr :=
  ((actor.hostnames.lookup host).map fun entry => entry.ips.keys).getD ∅

theorem DnsActor.snapshot_handleSetHostnames (tuning : DnsTuning) (actor : DnsActor) (now : Nat)
    (hosts : Finset String) (host : String) :
    (actor.handleSetHostnames tuning now hosts).snapshot.lookup host =
      if host ∈ hosts then
        some (match parseIpAddr host with
          | none => actor.knownIps host
          | some ip => insert ip (actor.knownIps host))
      else none := by
  simp only [snapshot, handleSetHostnames, triggerRefresh, recordLiterals, setHostnames,
    HashMap.lookup_map, HashMap.lookup_ofKeys, knownIps]
  by_cases registered : host ∈ hosts
  · have refreshed (entry : HostnameState) (time : Nat) :
        Finmap.keys (if isDue now host entry = true then { entry with nextRefreshAt := time } else
          entry).ips =
          entry.ips.keys := by
      split <;> rfl
    simp only [if_pos registered, Option.map_some, refreshed, Option.some.injEq]
    cases parsed : parseIpAddr host with
    | none => cases actor.hostnames.lookup host <;> simp
    | some ip =>
      have inserted (ips : HashMap IpAddr Nat) (time : Nat) : (ips.insert ip time).keys =
          insert ip ips.keys := by
        ext other
        simp [Finmap.mem_keys, Finmap.mem_insert]
      cases actor.hostnames.lookup host <;> simp [inserted]
  · simp [registered]

/-! ## Snapshots

The dirty flag is set whenever the addresses of some host change.
-/

namespace DnsActor

variable (tuning : DnsTuning) (actor : DnsActor) (now : Nat)

theorem lookup_snapshot (host : String) :
    actor.snapshot.lookup host = (actor.hostnames.lookup host).map fun entry => entry.ips.keys := by
  simp [snapshot]

@[simp] theorem snapshot_triggerRefresh :
    (actor.triggerRefresh tuning now).snapshot = actor.snapshot := by
  apply Finmap.ext_lookup
  intro host
  simp only [lookup_snapshot, triggerRefresh, HashMap.lookup_map, Option.map_map]
  congr 1
  funext entry
  simp only [Function.comp_apply]
  split <;> rfl

variable {tuning actor now}

theorem snapshot_recordIps {host : String} {records : HashMap IpAddr UInt32}
    (clean : (actor.recordIps tuning now host records).dirty = false) :
    (actor.recordIps tuning now host records).snapshot = actor.snapshot := by
  unfold recordIps at clean ⊢
  split at clean
  next => rfl
  next entry found =>
    apply Finmap.ext_lookup
    intro other
    -- all recorded addresses were known
    simp only [Bool.or_eq_false_iff, decide_eq_false_iff_not, Decidable.not_not] at clean
    by_cases same : other = host
    · subst same
      have keys : Finmap.keys (records.map (fun _ ttl => expiresAt tuning now ttl) ∪ entry.ips) =
          entry.ips.keys := by
        ext ip
        simp only [Finmap.mem_keys, Finmap.mem_union, HashMap.mem_map, or_iff_right_iff_imp]
        exact fun recorded => Finmap.mem_keys.mp (clean.2 (Finmap.mem_keys.mpr recorded))
      simp [lookup_snapshot, found, keys]
    · simp [lookup_snapshot, same]

theorem snapshot_expireStale (clean : (actor.expireStale now).dirty = false) :
    (actor.expireStale now).snapshot = actor.snapshot := by
  obtain ⟨_, nothing⟩ := Bool.or_eq_false_iff.mp clean
  apply Finmap.ext_lookup
  intro host
  simp only [lookup_snapshot, expireStale, HashMap.lookup_map, Option.map_map]
  cases found : actor.hostnames.lookup host with
  | none => rfl
  | some entry =>
    have fresh (ip : IpAddr) (expires : Nat) (known : entry.ips.lookup ip = some expires) :
        ¬ expires ≤ now := by
      intro expired
      have stale : (actor.hostnames.any fun _ entry => entry.ips.any fun _ expires =>
          decide (expires ≤ now)) = true :=
        HashMap.any_eq_true.mpr ⟨host, entry, found,
          HashMap.any_eq_true.mpr ⟨ip, expires, known, by simpa⟩⟩
      rw [stale] at nothing
      cases nothing
    have kept : entry.ips.retain (fun _ expires => !decide (expires ≤ now)) = entry.ips := by
      apply Finmap.ext_lookup
      intro ip
      cases known : entry.ips.lookup ip with
      | none => simp [known]
      | some expires => simpa [known] using fresh ip expires known
    simp [kept]

theorem snapshot_select {input : DnsInput} {after : DnsActor}
    (taken : actor.select tuning now input = some after) (clean : after.dirty = false) :
    after.snapshot = actor.snapshot := by
  cases input with
  | setHostnames hosts =>
    cases taken
    cases clean
  | joined query result =>
    simp only [select, Option.ite_none_right_eq_some, Option.some.injEq] at taken
    obtain ⟨_, rfl⟩ := taken
    simp only [handleQueryResult] at clean ⊢
    split at clean
    next gone =>
      rw [if_pos gone]
      rfl
    next known =>
      rw [if_neg known]
      cases result with
      | none => rfl
      | some message =>
        simp only [handleResponse] at clean ⊢
        split at clean
        next other =>
          rw [if_pos other]
          rfl
        next expected =>
          rw [if_neg expected]
          exact snapshot_recordIps clean
  | refresh =>
    cases taken
    rw [snapshot_expireStale clean, snapshot_triggerRefresh]
  | pace query =>
    simp only [select, Option.ite_none_right_eq_some, Option.some.injEq] at taken
    obtain ⟨_, rfl⟩ := taken
    rfl

theorem iterate_snapshot {input : DnsInput} {after : DnsActor} {emitted : Option DnsSnapshot}
    (taken : actor.iterate tuning now input = some (after, emitted)) :
    emitted = some after.snapshot ∨ emitted = none ∧ after.snapshot = actor.snapshot := by
  obtain ⟨middle, selected, sent⟩ := Option.map_eq_some_iff.mp taken
  unfold emitSnapshot at sent
  split at sent
  next =>
    cases sent
    exact .inl rfl
  next clean =>
    cases sent
    exact .inr ⟨rfl, snapshot_select selected (by simpa using clean)⟩

end DnsActor

/-! ## Literals

Queries concern names only, so what is recorded for a literal is the literal itself.
-/

structure DnsActor.LiteralsApart (actor : DnsActor) : Prop where
  queued : ∀ query ∈ actor.queuedQueries, parseIpAddr query.hostname = none
  tasks : ∀ query ∈ actor.tasks, parseIpAddr query.hostname = none
  recorded : ∀ host entry, actor.hostnames.lookup host = some entry →
    ∀ addr, parseIpAddr host = some addr → entry.ips.keys ⊆ {addr}

namespace DnsActor.LiteralsApart

theorem new : DnsActor.new.LiteralsApart where
  queued query member := absurd member (Finset.notMem_empty query)
  tasks query member := absurd member (Multiset.notMem_zero query)
  recorded host entry found := by simp [DnsActor.new] at found

variable {actor : DnsActor} (apart : actor.LiteralsApart)
include apart

theorem setHostnames (now : Nat) (hosts : Finset String) :
    (actor.setHostnames now hosts).LiteralsApart where
  queued query member := apart.queued query (Finset.mem_filter.mp member).1
  tasks := apart.tasks
  recorded host entry found addr parsed := by
    simp only [DnsActor.setHostnames, HashMap.lookup_ofKeys, Option.ite_none_right_eq_some,
      Option.some.injEq] at found
    obtain ⟨_, rfl⟩ := found
    cases before : actor.hostnames.lookup host with
    | none => simp
    | some old => simpa using apart.recorded host old before addr parsed

theorem recordLiterals (tuning : DnsTuning) (now : Nat) (hosts : Finset String) :
    (actor.recordLiterals tuning now hosts).LiteralsApart where
  queued := apart.queued
  tasks := apart.tasks
  recorded host entry found addr parsed := by
    simp only [DnsActor.recordLiterals, HashMap.lookup_map, Option.map_eq_some_iff, parsed] at found
    obtain ⟨old, before, rfl⟩ := found
    have known := apart.recorded host old before addr parsed
    split
    · intro ip member
      rw [Finmap.mem_keys, Finmap.mem_insert] at member
      rcases member with rfl | member
      · exact Finset.mem_singleton_self ip
      · exact known (Finmap.mem_keys.mpr member)
    · exact known

theorem triggerRefresh (tuning : DnsTuning) (now : Nat) :
    (actor.triggerRefresh tuning now).LiteralsApart where
  queued query member := by
    rcases Finset.mem_union.mp member with member | member
    · exact apart.queued query member
    · obtain ⟨pair, chosen, rfl⟩ := Finset.mem_image.mp (Finset.mem_filter.mp member).1
      -- a new query is for a host that is due, and no literal ever is
      have due := (Finset.mem_filter.mp (Finset.mem_product.mp chosen).1).2
      rw [Option.any_eq_true] at due
      obtain ⟨entry, _, isDue⟩ := due
      simpa [DnsActor.isDue, DnsActor.isLiteral] using (Bool.and_eq_true_iff.mp isDue).1
  tasks := apart.tasks
  recorded host entry found addr parsed := by
    simp only [DnsActor.triggerRefresh, HashMap.lookup_map, Option.map_eq_some_iff] at found
    obtain ⟨old, before, rfl⟩ := found
    have known := apart.recorded host old before addr parsed
    split <;> exact known

theorem expireStale (now : Nat) : (actor.expireStale now).LiteralsApart where
  queued := apart.queued
  tasks := apart.tasks
  recorded host entry found addr parsed := by
    simp only [DnsActor.expireStale, HashMap.lookup_map, Option.map_eq_some_iff] at found
    obtain ⟨old, before, rfl⟩ := found
    intro ip member
    apply apart.recorded host old before addr parsed
    rw [Finmap.mem_keys, ← Finmap.lookup_isSome] at member ⊢
    simp only [HashMap.lookup_retain] at member
    exact Option.isSome_of_isSome_filter _ _ member

theorem recordIps (tuning : DnsTuning) (now : Nat) {host : String}
    (name : parseIpAddr host = none) (records : HashMap IpAddr UInt32) :
    (actor.recordIps tuning now host records).LiteralsApart := by
  unfold DnsActor.recordIps
  split
  next => exact apart
  next old before =>
    refine ⟨apart.queued, apart.tasks, fun other entry found addr parsed => ?_⟩
    have different : other ≠ host := by
      rintro rfl
      rw [name] at parsed
      cases parsed
    rw [Finmap.lookup_insert_of_ne _ different] at found
    exact apart.recorded other entry found addr parsed

theorem handleQueryResult (tuning : DnsTuning) (now : Nat) {query : DnsQuery}
    (name : parseIpAddr query.hostname = none) (result : Option Message) :
    (actor.handleQueryResult tuning now query result).LiteralsApart := by
  have base : ({ actor with pendingQueries := actor.pendingQueries.erase query } :
      DnsActor).LiteralsApart :=
    ⟨apart.queued, apart.tasks, apart.recorded⟩
  unfold DnsActor.handleQueryResult
  simp only
  split
  next => exact base
  next =>
    cases result with
    | none =>
      refine ⟨fun other member => ?_, apart.tasks, apart.recorded⟩
      rcases Finset.mem_insert.mp member with rfl | member
      · exact name
      · exact apart.queued other member
    | some message =>
      simp only [DnsActor.handleResponse]
      split
      · exact base
      · exact base.recordIps tuning now name _

theorem select {tuning : DnsTuning} {now : Nat} {input : DnsInput} {after : DnsActor}
    (taken : actor.select tuning now input = some after) : after.LiteralsApart := by
  cases input with
  | setHostnames hosts =>
    cases taken
    have recorded := (apart.setHostnames now hosts).recordLiterals tuning now hosts
    have marked :
        ({ (actor.setHostnames now hosts).recordLiterals tuning now hosts with dirty := true } :
        DnsActor).LiteralsApart := ⟨recorded.queued, recorded.tasks, recorded.recorded⟩
    exact marked.triggerRefresh tuning now
  | joined query result =>
    simp only [DnsActor.select, Option.ite_none_right_eq_some, Option.some.injEq] at taken
    obtain ⟨running, rfl⟩ := taken
    have base : ({ actor with tasks := actor.tasks.erase query } : DnsActor).LiteralsApart :=
      ⟨apart.queued, fun other member => apart.tasks other (Multiset.mem_of_mem_erase member),
        apart.recorded⟩
    exact base.handleQueryResult tuning now (apart.tasks query running) result
  | refresh =>
    cases taken
    exact (apart.triggerRefresh tuning now).expireStale now
  | pace query =>
    simp only [DnsActor.select, Option.ite_none_right_eq_some, Option.some.injEq] at taken
    obtain ⟨queued, rfl⟩ := taken
    refine ⟨fun other member => apart.queued other (Finset.mem_of_mem_erase member),
      fun other member => ?_,
      apart.recorded⟩
    rcases Multiset.mem_cons.mp member with rfl | member
    · exact apart.queued other queued
    · exact apart.tasks other member

theorem iterate {tuning : DnsTuning} {now : Nat} {input : DnsInput} {after : DnsActor}
    {emitted : Option DnsSnapshot}
    (taken : actor.iterate tuning now input = some (after, emitted)) : after.LiteralsApart := by
  obtain ⟨middle, selected, sent⟩ := Option.map_eq_some_iff.mp taken
  have kept := apart.select selected
  unfold DnsActor.emitSnapshot at sent
  split at sent
  · cases sent
    exact ⟨kept.queued, kept.tasks, kept.recorded⟩
  · cases sent
    exact kept

theorem snapshot_handleSetHostnames (tuning : DnsTuning) (now : Nat) {hosts : Finset String}
    {host : String} (registered : host ∈ hosts) {addr : IpAddr}
    (parsed : parseIpAddr host = some addr) :
    (actor.handleSetHostnames tuning now hosts).snapshot.lookup host = some {addr} := by
  rw [DnsActor.snapshot_handleSetHostnames, if_pos registered, parsed]
  have known : actor.knownIps host ⊆ {addr} := by
    unfold DnsActor.knownIps
    cases before : actor.hostnames.lookup host with
    | none => simp
    | some entry => exact apart.recorded host entry before addr parsed
  have equal : insert addr (actor.knownIps host) = {addr} :=
    Finset.Subset.antisymm (Finset.insert_subset (by simp) known) (by simp)
  simp [equal]

end DnsActor.LiteralsApart

end H3llo.Dns
