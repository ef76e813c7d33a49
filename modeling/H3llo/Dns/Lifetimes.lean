import H3llo.Basis.Runs
import H3llo.Dns.Actor

/-! How long a resolved address stays.

A refresh advances the timer of a host by one interval, and its answer keeps an address
for at least two. An address that every refresh brings again is therefore still valid at
the tick after the one that would have refreshed it. Literals are never refreshed: they
stay for the longest TTL after the last registration update.
-/

set_option autoImplicit false

namespace H3llo.Dns
open H3llo.Net H3llo.Runs

/-! ## One host -/

def HostnameState.refreshed (tuning : DnsTuning) (now : Nat) (host : String)
    (entry : HostnameState) : HostnameState :=
  if DnsActor.isDue now host entry then
    { entry with nextRefreshAt := now + tuning.refreshInterval }
  else entry

def HostnameState.expired (now : Nat) (entry : HostnameState) : HostnameState :=
  { entry with ips := entry.ips.retain fun _ expires => !decide (expires ≤ now) }

def HostnameState.recording (tuning : DnsTuning) (now : Nat) (records : HashMap IpAddr UInt32)
    (entry : HostnameState) : HostnameState :=
  { entry with ips := records.map (fun _ ttl => DnsActor.expiresAt tuning now ttl) ∪ entry.ips }

def HostnameState.after (tuning : DnsTuning) (now : Nat) (host : String) :
    DnsInput → HostnameState → HostnameState
  | .refresh, entry => (entry.refreshed tuning now host).expired now
  | .joined query (some message), entry =>
      if query.hostname = host then
        entry.recording tuning now (extractRecords message query.recordType)
      else entry
  | _, entry => entry

namespace HostnameState

@[simp] theorem refreshed_ips (tuning : DnsTuning) (now : Nat) (host : String)
    (entry : HostnameState) : (entry.refreshed tuning now host).ips = entry.ips := by
  unfold refreshed
  split <;> rfl

@[simp] theorem lookup_expired (now : Nat) (entry : HostnameState) (ip : IpAddr) :
    (entry.expired now).ips.lookup ip = (entry.ips.lookup ip).filter fun expires =>
      !decide (expires ≤ now) := by
  simp [expired]

theorem lookup_recording (tuning : DnsTuning) (now : Nat) (records : HashMap IpAddr UInt32)
    (entry : HostnameState) (ip : IpAddr) :
    (entry.recording tuning now records).ips.lookup ip =
      ((records.lookup ip).map (DnsActor.expiresAt tuning now)).or (entry.ips.lookup ip) := by
  unfold recording
  by_cases recorded : ip ∈ records.map fun _ ttl => DnsActor.expiresAt tuning now ttl
  · rw [Finmap.lookup_union_left recorded, HashMap.lookup_map]
    obtain ⟨ttl, found⟩ := Option.isSome_iff_exists.mp
      (Finmap.lookup_isSome.mpr ((HashMap.mem_map _ _ ip).mp recorded))
    simp [found]
  · rw [Finmap.lookup_union_right recorded]
    have absent := Finmap.lookup_eq_none.mpr (mt (HashMap.mem_map _ _ ip).mpr recorded)
    simp [absent]

end HostnameState

namespace DnsActor

variable {tuning : DnsTuning} {actor after : DnsActor} {now : Nat} {emitted : Option DnsSnapshot}

theorem hostnames_emitSnapshot : actor.emitSnapshot.1.hostnames = actor.hostnames := by
  unfold emitSnapshot
  split <;> rfl

theorem lookup_recordIps (records : HashMap IpAddr UInt32) (host other : String) :
    (actor.recordIps tuning now host records).hostnames.lookup other =
      (actor.hostnames.lookup other).map fun entry =>
        if host = other then entry.recording tuning now records else entry := by
  unfold recordIps
  by_cases same : host = other
  · subst same
    cases found : actor.hostnames.lookup host <;> simp [found, HostnameState.recording]
  · cases found : actor.hostnames.lookup host <;> simp [same,
      Finmap.lookup_insert_of_ne _ (Ne.symm same)]

theorem lookup_handleResponse (message : Message) (query : DnsQuery) (other : String) :
    (actor.handleResponse tuning now message query).hostnames.lookup other =
      (actor.hostnames.lookup other).map fun entry =>
        if query.hostname = other then
          entry.recording tuning now (extractRecords message query.recordType)
        else entry := by
  unfold handleResponse
  simp only
  split
  next dropped =>
    have none : extractRecords message query.recordType = ∅ := by
      apply Finmap.ext_lookup
      intro ip
      rw [Finmap.lookup_empty, Finmap.lookup_eq_none, ← Finmap.mem_keys, dropped.2.1]
      exact Finset.notMem_empty ip
    have same (entry : HostnameState) : entry.recording tuning now ∅ = entry := by
      have union : (HashMap.map (fun _ ttl => expiresAt tuning now ttl) ∅ ∪
          entry.ips : HashMap IpAddr Nat) = entry.ips := by
        apply Finmap.ext_lookup
        intro ip
        exact Finmap.lookup_union_right (mt (HashMap.mem_map _ _ ip).mp Finmap.notMem_empty)
      rw [HostnameState.recording, union]
    simp [none, same]
  next => exact lookup_recordIps _ _ _

theorem lookup_iterate {input : DnsInput} (plain : ∀ hosts, input ≠ .setHostnames hosts)
    (taken : actor.iterate tuning now input = some (after, emitted)) (host : String) :
    after.hostnames.lookup host = (actor.hostnames.lookup host).map
      (HostnameState.after tuning now host input) := by
  obtain ⟨middle, selected, sent⟩ := Option.map_eq_some_iff.mp taken
  obtain rfl : middle.emitSnapshot.1 = after := congrArg Prod.fst sent
  rw [hostnames_emitSnapshot]
  cases input with
  | setHostnames hosts => exact absurd rfl (plain hosts)
  | joined query result =>
    simp only [select, Option.ite_none_right_eq_some, Option.some.injEq] at selected
    obtain ⟨_, rfl⟩ := selected
    simp only [handleQueryResult]
    split
    next unknown =>
      -- a result for an unknown host concerns no registered one
      cases result with
      | none => cases actor.hostnames.lookup host <;> rfl
      | some message =>
        by_cases same : query.hostname = host
        · subst same
          simp [Finmap.lookup_eq_none.mpr unknown]
        · cases actor.hostnames.lookup host <;> simp [HostnameState.after, same]
    next =>
      cases result with
      | none => cases actor.hostnames.lookup host <;> rfl
      | some message => exact lookup_handleResponse message query host
  | refresh =>
    cases selected
    simp only [expireStale, triggerRefresh, HashMap.lookup_map, Option.map_map]
    rfl
  | pace query =>
    simp only [select, Option.ite_none_right_eq_some, Option.some.injEq] at selected
    obtain ⟨_, rfl⟩ := selected
    change actor.hostnames.lookup host = _
    cases actor.hostnames.lookup host <;> rfl

/-- A registration update: a literal is recorded, any other host is refreshed if it is due. -/
theorem lookup_iterate_setHostnames {hosts : Finset String}
    (taken : actor.iterate tuning now (.setHostnames hosts) = some (after, emitted))
    (host : String) :
    after.hostnames.lookup host =
      if host ∈ hosts then
        let entry := (actor.hostnames.lookup host).getD ⟨∅, now⟩
        some (match parseIpAddr host with
          | none => entry.refreshed tuning now host
          | some ip => { entry with ips := entry.ips.insert ip (expiresAt tuning now 0xFFFFFFFF) })
      else none := by
  rw [iterate_setHostnames] at taken
  cases taken
  simp only [handleSetHostnames, triggerRefresh, recordLiterals, setHostnames, HashMap.lookup_map,
    HashMap.lookup_ofKeys]
  by_cases listed : host ∈ hosts
  · cases parsed : parseIpAddr host with
    | none => simp [listed, HostnameState.refreshed]
    | some ip => simp [listed, isDue, isLiteral, parsed]
  · simp [listed]

theorem mem_knownIps {host : String} {ip : IpAddr} :
    ip ∈ actor.knownIps host ↔ ∃ entry expires, actor.hostnames.lookup host = some entry ∧
      entry.ips.lookup ip = some expires := by
  unfold knownIps
  cases actor.hostnames.lookup host with
  | none => simp
  | some entry => simp [Finmap.mem_keys, ← Finmap.lookup_isSome, Option.isSome_iff_exists]

end DnsActor

/-! ## Runs that are watched for one address of one host -/

def DnsInput.isTick : DnsInput → Bool
  | .refresh => true
  | _ => false

def DnsInput.isUpdate : DnsInput → Bool
  | .setHostnames _ => true
  | _ => false

def DnsActor.refreshes (actor : DnsActor) (now : Nat) (host : String) : DnsInput → Bool
  | .setHostnames hosts =>
    decide (host ∈ hosts) && isDue now host ((actor.hostnames.lookup host).getD ⟨∅, now⟩)
  | .refresh => (actor.hostnames.lookup host).any (isDue now host)
  | _ => false

def DnsInput.brings (host : String) (ip : IpAddr) : DnsInput → Bool
  | .joined query (some message) =>
    decide (query.hostname = host ∧ ip ∈ extractRecords message query.recordType)
  | _ => false

structure Watch where
  actor : DnsActor
  clock : Nat
  /-- Time of the last refresh tick. The loop starts right after one. -/
  lastTick : Nat
  /-- Time of the last registration update. -/
  updatedAt : Nat
  /-- The last refresh of the host was answered with the address. -/
  answered : Bool
  /-- The address has been recorded since the host was registered. -/
  recorded : Bool
  /-- Snapshot of the last iteration. -/
  emitted : Option DnsSnapshot

namespace Watch

def start (now : Nat) : Watch := ⟨.new, now, now, now, true, false, none⟩

def step (tuning : DnsTuning) (host : String) (ip : IpAddr) (action : Nat × DnsInput)
    (watch : Watch) : Option Watch :=
  (watch.actor.iterate tuning action.1 action.2).map fun (actor, emitted) =>
    { actor
      clock := action.1
      lastTick := if action.2.isTick then action.1 else watch.lastTick
      updatedAt := if action.2.isUpdate then action.1 else watch.updatedAt
      answered := !watch.actor.refreshes action.1 host action.2 &&
        (watch.answered || action.2.brings host ip)
      recorded := decide (host ∈ actor.hostnames) &&
        (watch.recorded || decide (ip ∈ actor.knownIps host))
      emitted }

/-- Time does not go back, ticks come in time, and none comes before the answer to a refresh of
the host, while it is registered. -/
def Punctual (tuning : DnsTuning) (host : String) (watch : Watch)
    (action : Nat × DnsInput) : Prop :=
  watch.clock ≤ action.1 ∧ (action.2.isTick = true →
    action.1 ≤ watch.lastTick + tuning.refreshInterval ∧
      (host ∈ watch.actor.hostnames → watch.answered = true))

instance (tuning : DnsTuning) (host : String) (watch : Watch) (action : Nat × DnsInput) :
    Decidable (Punctual tuning host watch action) := inferInstanceAs (Decidable (_ ∧ _))

end Watch

/-! ## Names -/

/-- The next refresh of the host is after the last tick, and the address outlives it by an
interval unless its answer is still to come. -/
structure HostnameState.Lasts (tuning : DnsTuning) (lastTick clock : Nat) (answered : Bool)
    (ip : IpAddr) (entry : HostnameState) : Prop where
  tick : lastTick < entry.nextRefreshAt
  timer : entry.nextRefreshAt ≤ clock + tuning.refreshInterval
  kept : ∀ expires, entry.ips.lookup ip = some expires → answered = true →
    entry.nextRefreshAt + tuning.refreshInterval ≤ expires

namespace HostnameState.Lasts

variable {tuning : DnsTuning} {lastTick clock now : Nat} {answered : Bool} {ip : IpAddr}
  {host : String} {entry : HostnameState}

theorem later (lasts : entry.Lasts tuning lastTick clock answered ip) (le : clock ≤ now) :
    entry.Lasts tuning lastTick now answered ip :=
  ⟨lasts.tick, Nat.le_trans lasts.timer (Nat.add_le_add_right le _), lasts.kept⟩

theorem refreshed (positive : 0 < tuning.refreshInterval)
    (lasts : entry.Lasts tuning lastTick now answered ip) (le : lastTick ≤ now) :
    (entry.refreshed tuning now host).Lasts tuning lastTick now
      (!DnsActor.isDue now host entry && answered) ip := by
  unfold HostnameState.refreshed
  cases due : DnsActor.isDue now host entry with
  | false => simpa using lasts
  | true =>
    refine ⟨?_, ?_, fun expires _ answered => ?_⟩
    · simp only [if_true]
      omega
    · simp
    · cases answered

theorem recording (floor : 2 * tuning.refreshInterval ≤ tuning.minTtl)
    (lasts : entry.Lasts tuning lastTick now answered ip) (records : HashMap IpAddr UInt32) :
    (entry.recording tuning now records).Lasts tuning lastTick now
      (answered || decide (ip ∈ records)) ip := by
  refine ⟨lasts.tick, lasts.timer, fun expires found done => ?_⟩
  rw [lookup_recording] at found
  cases recorded : records.lookup ip with
  | some ttl =>
    -- the answer came after the refresh, and keeps the address for two intervals
    simp only [recorded, Option.map_some, Option.some_or, Option.some.injEq] at found
    subst found
    have timer := lasts.timer
    change entry.nextRefreshAt + tuning.refreshInterval ≤ now + max _ _
    have kept := Nat.le_trans floor (Nat.le_max_right (ttl.toNat * nanosPerSec) tuning.minTtl)
    omega
  | none =>
    rw [decide_eq_false (Finmap.lookup_eq_none.mp recorded), Bool.or_false] at done
    simp only [recorded, Option.map_none, Option.none_or] at found
    exact lasts.kept expires found done

/-- An address that was answered for is not expired by a tick that comes in time. -/
theorem lookup_expired (lasts : entry.Lasts tuning lastTick clock true ip)
    (inTime : now ≤ lastTick + tuning.refreshInterval) {expires : Nat}
    (found : entry.ips.lookup ip = some expires) :
    (entry.refreshed tuning now host |>.expired now).ips.lookup ip = some expires := by
  have kept := lasts.kept expires found rfl
  have tick := lasts.tick
  have valid : now < expires := by omega
  simp [found, valid]

/-- What is left by a tick at `now` lasts, if the host is due later. -/
theorem expired {state : HostnameState} (lasts : state.Lasts tuning lastTick now answered ip)
    (later : now < state.nextRefreshAt) : (state.expired now).Lasts tuning now now answered ip := by
  refine ⟨later, lasts.timer, fun expires found => ?_⟩
  rw [HostnameState.lookup_expired, Option.filter_eq_some_iff] at found
  exact lasts.kept expires found.1

theorem ticked (positive : 0 < tuning.refreshInterval) (name : parseIpAddr host = none)
    (lasts : entry.Lasts tuning lastTick now answered ip) (le : lastTick ≤ now) :
    (entry.refreshed tuning now host |>.expired now).Lasts tuning now now
      (!DnsActor.isDue now host entry && answered) ip := by
  refine (lasts.refreshed positive le).expired ?_
  unfold HostnameState.refreshed
  cases due : DnsActor.isDue now host entry with
  | true =>
    simp only [if_true]
    omega
  | false => simpa [DnsActor.isDue, DnsActor.isLiteral, name] using due

theorem registered (positive : 0 < tuning.refreshInterval) (name : parseIpAddr host = none)
    (le : lastTick ≤ now) :
    (HostnameState.refreshed tuning now host ⟨∅, now⟩).Lasts tuning lastTick now answered ip := by
  have due : DnsActor.isDue now host ⟨∅, now⟩ = true := by
    simp [DnsActor.isDue, DnsActor.isLiteral, name]
  rw [HostnameState.refreshed, if_pos due]
  refine ⟨?_, Nat.le_refl _, fun expires found => ?_⟩
  · simp only
    omega
  · simp at found

end HostnameState.Lasts

namespace Watch

structure Lasting (tuning : DnsTuning) (host : String) (ip : IpAddr) (watch : Watch) : Prop where
  order : watch.lastTick ≤ watch.clock
  known : watch.recorded = true → ip ∈ watch.actor.knownIps host
  each : ∀ entry, watch.actor.hostnames.lookup host = some entry →
    entry.Lasts tuning watch.lastTick watch.clock watch.answered ip

variable {tuning : DnsTuning} {host : String} {ip : IpAddr} {watch next : Watch}

theorem known_step {action : Nat × DnsInput}
    (taken : step tuning host ip action watch = some next)
    (keeps : ∀ entry expires later, watch.actor.hostnames.lookup host = some entry →
      entry.ips.lookup ip = some expires → next.actor.hostnames.lookup host = some later →
      (later.ips.lookup ip).isSome)
    (known : watch.recorded = true → ip ∈ watch.actor.knownIps host)
    (recorded : next.recorded = true) : ip ∈ next.actor.knownIps host := by
  obtain ⟨⟨actor, emitted⟩, iterated, rfl⟩ := Option.map_eq_some_iff.mp taken
  simp only [Bool.and_eq_true, decide_eq_true_eq, Bool.or_eq_true] at recorded
  obtain ⟨registered, before | now⟩ := recorded
  · obtain ⟨entry, expires, found, valid⟩ := DnsActor.mem_knownIps.mp (known before)
    obtain ⟨later, present⟩ := Option.isSome_iff_exists.mp (Finmap.lookup_isSome.mpr registered)
    obtain ⟨still, kept⟩ := Option.isSome_iff_exists.mp
      (keeps entry expires later found valid present)
    exact DnsActor.mem_knownIps.mpr ⟨later, still, present, kept⟩
  · exact now

theorem Lasting.step (positive : 0 < tuning.refreshInterval)
    (floor : 2 * tuning.refreshInterval ≤ tuning.minTtl) (name : parseIpAddr host = none)
    {action : Nat × DnsInput} (lasting : watch.Lasting tuning host ip)
    (punctual : Punctual tuning host watch action)
    (taken : step tuning host ip action watch = some next) : next.Lasting tuning host ip := by
  obtain ⟨now, input⟩ := action
  obtain ⟨later, inTime⟩ := punctual
  have whole := taken
  obtain ⟨⟨actor, emitted⟩, iterated, rfl⟩ := Option.map_eq_some_iff.mp taken
  -- In each case: the address stays known while it is valid, and the entry that is left lasts until
  -- the next tick.
  have before : watch.lastTick ≤ now := Nat.le_trans lasting.order later
  have each (entry : HostnameState) (found : watch.actor.hostnames.lookup host = some entry) :
      entry.Lasts tuning watch.lastTick now watch.answered ip :=
    (lasting.each entry found).later later
  cases input with
  | setHostnames hosts =>
    have lookups := DnsActor.lookup_iterate_setHostnames iterated host
    simp only [name] at lookups
    refine ⟨before, known_step whole (fun entry expires after found valid present => ?_)
      lasting.known, fun after present => ?_⟩
    · simp only [lookups, found, Option.getD_some, Option.ite_none_right_eq_some, Option.some.injEq]
        at present
      obtain ⟨_, rfl⟩ := present
      simp [valid]
    · simp only [lookups, Option.ite_none_right_eq_some, Option.some.injEq] at present
      obtain ⟨listed, rfl⟩ := present
      simp only [DnsActor.refreshes, DnsInput.brings, DnsInput.isTick, listed, decide_true,
        Bool.true_and, Bool.or_false]
      cases found : watch.actor.hostnames.lookup host with
      -- A host that was not registered before starts without addresses.
      | none => exact .registered positive name before
      | some entry => exact (each entry found).refreshed positive before
  | joined query result =>
    have lookups := DnsActor.lookup_iterate (by simp) iterated host
    refine ⟨before, known_step whole (fun entry expires after found valid present => ?_)
      lasting.known, fun after present => ?_⟩
    · simp only [lookups, found, Option.map_some, Option.some.injEq] at present
      subst present
      cases result with
      | none => simp [HostnameState.after, valid]
      | some message =>
        simp only [HostnameState.after]
        split
        · rw [HostnameState.lookup_recording, valid]
          cases (extractRecords message query.recordType).lookup ip <;> rfl
        · simp [valid]
    · simp only [lookups, Option.map_eq_some_iff] at present
      obtain ⟨entry, found, rfl⟩ := present
      simp only [DnsActor.refreshes, DnsInput.isTick, Bool.not_false, Bool.true_and]
      cases result with
      | none => simpa [HostnameState.after, DnsInput.brings] using each entry found
      | some message =>
        by_cases same : query.hostname = host
        · simpa [HostnameState.after, DnsInput.brings, same] using (each entry found).recording
            floor _
        · simpa [HostnameState.after, DnsInput.brings, same] using each entry found
  | refresh =>
    have lookups := DnsActor.lookup_iterate (by simp) iterated host
    obtain ⟨interval, answered⟩ := inTime rfl
    refine ⟨Nat.le_refl now, known_step whole (fun entry expires after found valid present => ?_)
      lasting.known,
      fun after present => ?_⟩
    · simp only [lookups, found, Option.map_some, Option.some.injEq] at present
      subst present
      -- The refresh of the last interval was answered, so that the address outlives this tick.
      have done := answered (Finmap.mem_of_lookup_eq_some found)
      have lasts := each entry found
      rw [done] at lasts
      simp only [HostnameState.after, lasts.lookup_expired interval valid, Option.isSome_some]
    · simp only [lookups, Option.map_eq_some_iff] at present
      obtain ⟨entry, found, rfl⟩ := present
      simpa [HostnameState.after, DnsActor.refreshes, DnsInput.brings, DnsInput.isTick, found]
        using (each entry found).ticked positive name before
  | pace query =>
    have lookups := DnsActor.lookup_iterate (by simp) iterated host
    have same : actor.hostnames.lookup host = watch.actor.hostnames.lookup host := by
      rw [lookups]
      cases watch.actor.hostnames.lookup host <;> rfl
    refine ⟨before, known_step whole (fun entry expires after found valid present => ?_)
      lasting.known, fun after present => ?_⟩
    · simp only [same, found, Option.some.injEq] at present
      subst present
      simp [valid]
    · simp only [same] at present
      simpa [DnsActor.refreshes, DnsInput.brings, DnsInput.isTick] using each after present

/-! ## Literals -/

/-- A registered literal is known until the longest TTL after the last update has passed, and
nothing else is recorded for it. -/
structure Fixed (tuning : DnsTuning) (host : String) (addr ip : IpAddr) (watch : Watch) : Prop where
  apart : watch.actor.LiteralsApart
  same : watch.recorded = true → host ∈ watch.actor.hostnames ∧ ip = addr
  each : ∀ entry, watch.actor.hostnames.lookup host = some entry →
    watch.clock < DnsActor.expiresAt tuning watch.updatedAt 0xFFFFFFFF →
    entry.ips.lookup addr = some (DnsActor.expiresAt tuning watch.updatedAt 0xFFFFFFFF)

theorem Fixed.step {addr : IpAddr} (literal : parseIpAddr host = some addr)
    {action : Nat × DnsInput} (fixed : watch.Fixed tuning host addr ip)
    (later : watch.clock ≤ action.1) (taken : step tuning host ip action watch = some next) :
    next.Fixed tuning host addr ip := by
  obtain ⟨now, input⟩ := action
  obtain ⟨⟨actor, emitted⟩, iterated, rfl⟩ := Option.map_eq_some_iff.mp taken
  have apart := fixed.apart.iterate iterated
  refine ⟨apart, fun recorded => ?_, fun after present early => ?_⟩
  · simp only [Bool.and_eq_true, decide_eq_true_eq, Bool.or_eq_true] at recorded
    obtain ⟨registered, before | now⟩ := recorded
    · exact ⟨registered, (fixed.same before).2⟩
    · refine ⟨registered, ?_⟩
      obtain ⟨entry, expires, found, valid⟩ := DnsActor.mem_knownIps.mp now
      have member := Finmap.mem_keys.mpr (Finmap.mem_of_lookup_eq_some valid)
      exact Finset.mem_singleton.mp (apart.recorded host entry found addr literal member)
  · cases input with
    | setHostnames hosts =>
      simp only [DnsActor.lookup_iterate_setHostnames iterated host, literal,
        Option.ite_none_right_eq_some, Option.some.injEq] at present
      obtain ⟨_, rfl⟩ := present
      exact Finmap.lookup_insert _
    | joined query result =>
      simp only [DnsActor.lookup_iterate (by simp) iterated host, Option.map_eq_some_iff] at present
      obtain ⟨entry, found, rfl⟩ := present
      -- queries are for names, so no result concerns a literal
      have different : query.hostname ≠ host := by
        rintro rfl
        obtain ⟨middle, selected, _⟩ := Option.map_eq_some_iff.mp iterated
        simp only [DnsActor.select, Option.ite_none_right_eq_some] at selected
        rw [fixed.apart.tasks query selected.1] at literal
        cases literal
      have kept := fixed.each entry found (Nat.lt_of_le_of_lt later early)
      cases result with
      | none => exact kept
      | some message => simpa [HostnameState.after, DnsInput.isUpdate, different] using kept
    | refresh =>
      simp only [DnsActor.lookup_iterate (by simp) iterated host, Option.map_eq_some_iff] at present
      obtain ⟨entry, found, rfl⟩ := present
      have kept := fixed.each entry found (Nat.lt_of_le_of_lt later early)
      change now < DnsActor.expiresAt tuning watch.updatedAt 0xFFFFFFFF at early
      simp [HostnameState.after, DnsInput.isUpdate, kept, early]
    | pace query =>
      simp only [DnsActor.lookup_iterate (by simp) iterated host, Option.map_eq_some_iff] at present
      obtain ⟨entry, found, rfl⟩ := present
      exact fixed.each entry found (Nat.lt_of_le_of_lt later early)

/-! ## Snapshots of a watched run -/

theorem emitted_step {action : Nat × DnsInput}
    (taken : step tuning host ip action watch = some next) :
    ∀ snapshot ∈ next.emitted, snapshot = next.actor.snapshot := by
  obtain ⟨⟨actor, emitted⟩, iterated, rfl⟩ := Option.map_eq_some_iff.mp taken
  intro snapshot sent
  rcases DnsActor.iterate_snapshot iterated with rfl | ⟨rfl, _⟩
  · exact (Option.some.inj sent).symm
  · cases sent

theorem emitted_reached {now : Nat} {allowed : Watch → Nat × DnsInput → Prop}
    (reached : Reaches (step tuning host ip) allowed (start now) watch) :
    ∀ snapshot ∈ watch.emitted, snapshot = watch.actor.snapshot := by
  cases reached with
  | refl =>
    intro snapshot sent
    cases sent
  | next _ _ taken => exact emitted_step taken

def Lists (snapshot : DnsSnapshot) (host : String) (ip : IpAddr) : Prop :=
  ∃ ips, snapshot.lookup host = some ips ∧ ip ∈ ips

theorem lists_of_known (known : ip ∈ watch.actor.knownIps host) :
    Lists watch.actor.snapshot host ip := by
  obtain ⟨entry, expires, found, valid⟩ := DnsActor.mem_knownIps.mp known
  refine ⟨entry.ips.keys, ?_, Finmap.mem_keys.mpr (Finmap.mem_of_lookup_eq_some valid)⟩
  rw [DnsActor.lookup_snapshot, found, Option.map_some]

end Watch

/-- With a TTL floor of two refresh intervals, an address that every refresh of a name brings
again is in every snapshot from the time it is recorded until the name is unregistered. A literal
is in every snapshot until the longest TTL after the last registration update has passed. -/
theorem ttl_floor {tuning : DnsTuning} (positive : 0 < tuning.refreshInterval)
    (floor : 2 * tuning.refreshInterval ≤ tuning.minTtl) {host : String} {ip : IpAddr} {now : Nat}
    {watch : Watch}
    (reached : Reaches (Watch.step tuning host ip) (Watch.Punctual tuning host)
      (Watch.start now) watch)
    (recorded : watch.recorded = true) {snapshot : DnsSnapshot}
    (sent : watch.emitted = some snapshot)
    (young : DnsActor.isLiteral host = true → watch.clock <
      DnsActor.expiresAt tuning watch.updatedAt 0xFFFFFFFF) :
    Watch.Lists snapshot host ip := by
  rw [Watch.emitted_reached reached snapshot sent]
  apply Watch.lists_of_known
  cases parsed : parseIpAddr host with
  | none =>
    have lasting : watch.Lasting tuning host ip := by
      refine reached.invariant ⟨Nat.le_refl now, fun recorded => ?_, fun entry found => ?_⟩
        fun _ _ _ before punctual taken => before.step positive floor parsed punctual taken
      · cases recorded
      · simp [Watch.start, DnsActor.new] at found
    exact lasting.known recorded
  | some addr =>
    have fixed : watch.Fixed tuning host addr ip := by
      refine reached.invariant ⟨.new, fun recorded => ?_, fun entry found => ?_⟩
        fun _ _ _ before punctual taken => before.step parsed punctual.1 taken
      · cases recorded
      · simp [Watch.start, DnsActor.new] at found
    obtain ⟨registered, rfl⟩ := fixed.same recorded
    obtain ⟨entry, found⟩ := Option.isSome_iff_exists.mp (Finmap.lookup_isSome.mpr registered)
    have kept := fixed.each entry found (young (by simp [DnsActor.isLiteral, parsed]))
    exact DnsActor.mem_knownIps.mpr ⟨entry, _, found, kept⟩

def minuteTuning : DnsTuning := ⟨60 * nanosPerSec, 120 * nanosPerSec⟩

def shortAnswers : List (Nat × DnsInput) :=
  let answer : DnsInput := .joined ⟨"node", .a⟩ (some ⟨.noError, [⟨0, .a 0x0a000001⟩]⟩)
  [(0, .setHostnames {"node"}), (1, .pace ⟨"node", .a⟩), (2, answer),
    (60 * nanosPerSec, .refresh), (60 * nanosPerSec, .pace ⟨"node", .a⟩),
      (61 * nanosPerSec, answer),
    (119 * nanosPerSec, .refresh), (179 * nanosPerSec, .refresh),
      (180 * nanosPerSec, .pace ⟨"node", .a⟩),
    (181 * nanosPerSec, answer), (182 * nanosPerSec, .setHostnames {"node"})]

theorem ttl_floor_short_answers : ∃ watch snapshot,
    Reaches (Watch.step minuteTuning "node" (.v4 0x0a000001)) (Watch.Punctual minuteTuning "node")
      (Watch.start 0) watch ∧
      watch.emitted = some snapshot ∧ Watch.Lists snapshot "node" (.v4 0x0a000001) := by
  have executed :
      ((run (guarded (Watch.step minuteTuning "node" (.v4 0x0a000001))
        (Watch.Punctual minuteTuning "node"))
      shortAnswers (Watch.start 0)).any fun watch =>
        decide (watch.recorded = true ∧ watch.emitted.isSome)) = true := by
    decide +kernel
  obtain ⟨watch, executed, facts⟩ := (Option.any_eq_true ..).mp executed
  obtain ⟨recorded, isSome⟩ := of_decide_eq_true facts
  obtain ⟨snapshot, sent⟩ := Option.isSome_iff_exists.mp isSome
  have reached := reaches_of_guarded_run executed
  have name : ¬ DnsActor.isLiteral "node" = true := by decide +kernel
  exact ⟨watch, snapshot, reached, sent,
    ttl_floor (by decide) (by decide) reached recorded sent fun literal => absurd literal name⟩

def slowTuning : DnsTuning := ⟨2 ^ 31 * nanosPerSec, 2 ^ 32 * nanosPerSec⟩

/-- Without the bound on literals: a literal is recorded once and expires at the second tick. -/
theorem literal_expires : ∃ watch snapshot,
    Reaches (Watch.step slowTuning "192.0.2.1" (.v4 0xc0000201))
      (Watch.Punctual slowTuning "192.0.2.1") (Watch.start 0)
        watch ∧
      2 * slowTuning.refreshInterval ≤ slowTuning.minTtl ∧ watch.recorded = true ∧
      watch.emitted = some snapshot ∧
      ¬ Watch.Lists snapshot "192.0.2.1" (.v4 0xc0000201) := by
  have executed : ((run
      (guarded (Watch.step slowTuning "192.0.2.1" (.v4 0xc0000201))
        (Watch.Punctual slowTuning "192.0.2.1"))
      [(0, .setHostnames {"192.0.2.1"}), (2 ^ 31 * nanosPerSec, .refresh),
        (2 ^ 32 * nanosPerSec, .refresh)]
      (Watch.start 0)).any fun watch =>
        decide (watch.recorded = true) && watch.emitted.any fun snapshot =>
          decide (.v4 0xc0000201 ∉ (snapshot.lookup "192.0.2.1").getD ∅)) = true := by
    decide +kernel
  obtain ⟨watch, executed, facts⟩ := (Option.any_eq_true ..).mp executed
  rw [Bool.and_eq_true, decide_eq_true_eq, Option.any_eq_true] at facts
  obtain ⟨recorded, snapshot, sent, missing⟩ := facts
  refine ⟨watch, snapshot, reaches_of_guarded_run executed, by decide, recorded, sent, ?_⟩
  rintro ⟨ips, found, member⟩
  rw [found, Option.getD_some] at missing
  exact of_decide_eq_true missing member

end H3llo.Dns
