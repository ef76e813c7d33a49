import H3llo.Dns.Exchange
import H3llo.Dns.Lifetimes
import H3llo.Dns.Queries

/-! The resolver with its query tasks and the network.

Every query runs in a task of its own, over a fresh socket with a random id. A task ends
with the first packet that answers it; a failure is held back until the deadline. The
network is free to deliver any packet to any socket, so what the resolver believes and
how much it sends have to follow from its own checks.
-/

set_option autoImplicit false

namespace H3llo.Dns
open H3llo.Net H3llo.Runs

/-! ## Tasks -/

inductive ResolveError where
  | exchange (text : String)
  | timedOut (timeout : Nat)
  deriving DecidableEq, Repr

structure QueryTask (Name : Type) where
  query : DnsQuery
  id : UInt16
  socket : Except String Unit
  sent : Except String Unit
  started : Nat
  /-- Packets that the socket has received. -/
  packets : List (Received Name)
  result : Option (Except ResolveError (Response Name))

/-- The message for the actor; a failure is only logged. -/
def responseMessage {Name : Type} : Except ResolveError (Response Name) → Option Message
  | .ok response => some response.message
  | .error _ => none

section Tasks

variable {Name : Type} [DomainName Name]

/-- The state of `resolve` when it is polled; `none` while it waits. -/
def QueryTask.resolve (timeout now : Nat) (task : QueryTask Name) :
    Option (Except ResolveError (Response Name)) :=
  match exchange task.socket task.sent task.id task.query task.packets with
  | some (.ok response) => some (.ok response)
  | some (.error text) =>
      if task.started + timeout ≤ now then some (.error (.exchange text)) else none
  | none => if task.started + timeout ≤ now then some (.error (.timedOut timeout)) else none

/-- A complete packet at the task's socket that repeats its id and asks its question. -/
structure QueryTask.Answered (task : QueryTask Name) (response : Response Name) : Prop where
  arrived : .decoded response ∈ task.packets
  id : response.id = task.id
  question : ∃ question, response.queries.head? = some question ∧
    question.queryType = some task.query.recordType ∧
    normalizeDnsName question.name = task.query.hostname
  complete : response.truncation = false

theorem mem_of_receive {id : UInt16} {query : DnsQuery} {packets : List (Received Name)}
    {response : Response Name} (returned : receive id query packets = some (.ok response)) :
    .decoded response ∈ packets := by
  induction packets with
  | nil => cases returned
  | cons packet rest ih =>
    cases packet with
    | failed error => cases returned
    | undecodable => exact List.mem_cons_of_mem _ (ih returned)
    | decoded first =>
      unfold receive at returned
      split at returned
      next => exact List.mem_cons_of_mem _ (ih returned)
      next =>
        split at returned
        next => exact List.mem_cons_of_mem _ (ih returned)
        next =>
          cases returned
          exact List.mem_cons_self

theorem receive_of_exchange {socket sent : Except String Unit} {id : UInt16} {query : DnsQuery}
    {packets : List (Received Name)} {response : Response Name}
    (returned : exchange socket sent id query packets = some (.ok response)) :
    receive id query packets = some (.ok response) := by
  unfold exchange at returned
  split at returned
  · cases returned
  · split at returned
    · cases returned
    · split at returned
      · cases returned
      · exact returned

/-- A response ends the task only if it answers it; a failure ends it at the deadline. -/
theorem QueryTask.resolve_spec {timeout now : Nat} {task : QueryTask Name}
    {result : Except ResolveError (Response Name)}
    (resolved : task.resolve timeout now = some result) :
    (∀ response, result = .ok response → task.Answered response) ∧
      (∀ error, result = .error error → task.started + timeout ≤ now) := by
  unfold QueryTask.resolve at resolved
  split at resolved
  next response returned =>
    cases resolved
    constructor
    · rintro _ ⟨⟩
      have received := receive_of_exchange returned
      obtain ⟨answers, complete⟩ := receive_ok received
      simp only [answersQuery, Bool.and_eq_true, beq_iff_eq, Option.any_eq_true] at answers
      obtain ⟨sameId, question, first, asked, named⟩ := answers
      exact ⟨mem_of_receive received, sameId, ⟨question, first, asked, named⟩, complete⟩
    · rintro _ ⟨⟩
  next text failed =>
    obtain ⟨due, same⟩ := Option.ite_none_right_eq_some.mp resolved
    cases same
    constructor
    · rintro _ ⟨⟩
    · exact fun _ _ => due
  next waiting =>
    obtain ⟨due, same⟩ := Option.ite_none_right_eq_some.mp resolved
    cases same
    constructor
    · rintro _ ⟨⟩
    · exact fun _ _ => due

end Tasks

/-! ## The system -/

structure Resolver (Name : Type) where
  actor : DnsActor
  clock : Nat
  /-- Tasks that are not joined yet. -/
  tasks : List (QueryTask Name)
  /-- Joined tasks, with the times at which they were joined. -/
  joined : List (QueryTask Name × Nat)
  lastRefresh : Option Nat
  /-- The snapshot of the last iteration. -/
  emitted : Option DnsSnapshot

inductive ResolverAction (Name : Type) where
  | setHostnames (hosts : Finset String)
  | refresh
  | pace (query : DnsQuery) (id : UInt16) (socket sent : Except String Unit)
  /-- A packet reaches the socket of a task. -/
  | arrive (index : Nat) (packet : Received Name)
  /-- A task is polled and ends. -/
  | finish (index : Nat)
  | join (index : Nat)

namespace Resolver

variable {Name : Type}

def new : Resolver Name := ⟨.new, 0, [], [], none, none⟩

def iterate (tuning : DnsTuning) (now : Nat) (input : DnsInput) (state : Resolver Name) :
    Option (Resolver Name) :=
  (state.actor.iterate tuning now input).map fun result =>
    { state with actor := result.1, clock := now, emitted := result.2 }

theorem iterate_eq_some {tuning : DnsTuning} {now : Nat} {input : DnsInput}
    {before next : Resolver Name} (iterated : before.iterate tuning now input = some next) :
    ∃ actor emitted, before.actor.iterate tuning now input = some (actor, emitted) ∧
      next = { before with actor, clock := now, emitted } := by
  obtain ⟨⟨actor, emitted⟩, selected, rfl⟩ := Option.map_eq_some_iff.mp iterated
  exact ⟨actor, emitted, selected, rfl⟩

def update (now index : Nat) (task : QueryTask Name) (state : Resolver Name) : Resolver Name :=
  { state with clock := now, emitted := none, tasks := state.tasks.set index task }

variable [DomainName Name]

def step (tuning : DnsTuning) (timeout : Nat) (action : Nat × ResolverAction Name)
    (state : Resolver Name) : Option (Resolver Name) :=
  let now := action.1
  if now < state.clock then none
  else
    match action.2 with
    | .setHostnames hosts => state.iterate tuning now (.setHostnames hosts)
    | .refresh =>
        (state.iterate tuning now .refresh).map fun next => { next with lastRefresh := some now }
    | .pace query id socket sent =>
        (state.iterate tuning now (.pace query)).map fun next =>
          { next with tasks := next.tasks ++ [⟨query, id, socket, sent, now, [], none⟩] }
    | .arrive index packet =>
        state.tasks[index]?.bind fun task =>
          -- The socket is gone when the task has ended.
          if task.result.isSome then none
          else some (state.update now index { task with packets := task.packets ++ [packet] })
    | .finish index =>
        state.tasks[index]?.bind fun task =>
          if task.result.isSome then none
          else (task.resolve timeout now).map fun result =>
            state.update now index { task with result := some result }
    | .join index =>
        state.tasks[index]?.bind fun task => task.result.bind fun result =>
          (state.iterate tuning now (.joined task.query (responseMessage result))).map fun next =>
            { next with tasks := next.tasks.eraseIdx index, joined := next.joined ++ [(task, now)] }

/-- Everything that a step can do. -/
inductive Moves (tuning : DnsTuning) (timeout now : Nat) (before : Resolver Name) :
    ResolverAction Name → Resolver Name → Prop where
  | registers {hosts : Finset String} {actor : DnsActor} {emitted : Option DnsSnapshot}
      (iterated : before.actor.iterate tuning now (.setHostnames hosts) = some (actor, emitted)) :
      Moves tuning timeout now before (.setHostnames hosts)
        { before with actor, clock := now, emitted }
  | refreshes {actor : DnsActor} {emitted : Option DnsSnapshot}
      (iterated : before.actor.iterate tuning now .refresh = some (actor, emitted)) :
      Moves tuning timeout now before .refresh
        { before with actor, clock := now, emitted, lastRefresh := some now }
  | paces {query : DnsQuery} {id : UInt16} {socket sent : Except String Unit} {actor : DnsActor}
      {emitted : Option DnsSnapshot}
      (iterated : before.actor.iterate tuning now (.pace query) = some (actor, emitted)) :
      Moves tuning timeout now before (.pace query id socket sent)
        { before with
          actor
          clock := now
          emitted
          tasks := before.tasks ++ [⟨query, id, socket, sent, now, [], none⟩] }
  | arrives {index : Nat} {packet : Received Name} {task : QueryTask Name}
      (found : before.tasks[index]? = some task) (waits : task.result = none) :
      Moves tuning timeout now before (.arrive index packet)
        (before.update now index { task with packets := task.packets ++ [packet] })
  | finishes {index : Nat} {task : QueryTask Name} {result : Except ResolveError (Response Name)}
      (found : before.tasks[index]? = some task)
      (resolved : task.resolve timeout now = some result) :
      Moves tuning timeout now before (.finish index)
        (before.update now index { task with result := some result })
  | joins {index : Nat} {task : QueryTask Name} {result : Except ResolveError (Response Name)}
      {actor : DnsActor} {emitted : Option DnsSnapshot} (found : before.tasks[index]? = some task)
      (ended : task.result = some result)
      (iterated : before.actor.iterate tuning now (.joined task.query (responseMessage result)) =
        some (actor, emitted)) :
      Moves tuning timeout now before (.join index)
        { before with actor, clock := now, emitted, tasks := before.tasks.eraseIdx index,
                      joined := before.joined ++ [(task, now)] }

variable {tuning : DnsTuning} {timeout now : Nat} {before after : Resolver Name}
  {action : ResolverAction Name}

theorem moves_of_step {action : Nat × ResolverAction Name}
    (taken : step tuning timeout action before = some after) :
    before.clock ≤ action.1 ∧ Moves tuning timeout action.1 before action.2 after := by
  obtain ⟨now, action⟩ := action
  unfold step at taken
  simp only at taken
  split at taken
  next => cases taken
  next later =>
    refine ⟨Nat.le_of_not_lt later, ?_⟩
    cases action with
    | setHostnames hosts =>
      obtain ⟨actor, emitted, iterated, rfl⟩ := iterate_eq_some taken
      exact .registers iterated
    | refresh =>
      obtain ⟨next, looped, rfl⟩ := Option.map_eq_some_iff.mp taken
      obtain ⟨actor, emitted, iterated, rfl⟩ := iterate_eq_some looped
      exact .refreshes iterated
    | pace query id socket sent =>
      obtain ⟨next, looped, rfl⟩ := Option.map_eq_some_iff.mp taken
      obtain ⟨actor, emitted, iterated, rfl⟩ := iterate_eq_some looped
      exact .paces iterated
    | arrive index packet =>
      obtain ⟨task, found, received⟩ := Option.bind_eq_some_iff.mp taken
      obtain ⟨waits, same⟩ := Option.ite_none_left_eq_some.mp received
      cases same
      exact .arrives found (by simpa using waits)
    | finish index =>
      obtain ⟨task, found, polled⟩ := Option.bind_eq_some_iff.mp taken
      obtain ⟨waits, ended⟩ := Option.ite_none_left_eq_some.mp polled
      obtain ⟨result, resolved, rfl⟩ := Option.map_eq_some_iff.mp ended
      exact .finishes found resolved
    | join index =>
      obtain ⟨task, found, joined⟩ := Option.bind_eq_some_iff.mp taken
      obtain ⟨result, ended, handled⟩ := Option.bind_eq_some_iff.mp joined
      obtain ⟨next, looped, rfl⟩ := Option.map_eq_some_iff.mp handled
      obtain ⟨actor, emitted, iterated, rfl⟩ := iterate_eq_some looped
      exact .joins found ended iterated

end Resolver

/-! ## Where addresses come from -/

theorem mem_answers_of_foldl {expected : RecordType} {ip : IpAddr} {ttl : UInt32}
    (answers : List Record) (records : HashMap IpAddr UInt32)
    (found : (answers.foldl (fun records answer =>
      match answer.addr expected with
      | none => records
      | some ip => if ip ∈ records then records else records.insert ip answer.ttl) records).lookup
        ip = some ttl) :
    records.lookup ip = some ttl ∨ ∃ record ∈ answers, record.addr expected = some ip ∧
      record.ttl = ttl := by
  induction answers generalizing records with
  | nil => exact .inl found
  | cons answer rest ih =>
    rw [List.foldl_cons] at found
    rcases ih _ found with first | ⟨record, member, facts⟩
    · split at first
      next => exact .inl first
      next other addressed =>
        split at first
        next => exact .inl first
        next =>
          by_cases same : ip = other
          · subst same
            rw [Finmap.lookup_insert] at first
            exact .inr ⟨answer, List.mem_cons_self, addressed, Option.some.inj first⟩
          · rw [Finmap.lookup_insert_of_ne _ same] at first
            exact .inl first
    · exact .inr ⟨record, List.mem_cons_of_mem _ member, facts⟩

theorem lookup_extractRecords {message : Message} {expected : RecordType} {ip : IpAddr}
    {ttl : UInt32} (found : (extractRecords message expected).lookup ip = some ttl) :
    ∃ record ∈ message.answers, record.addr expected = some ip ∧ record.ttl = ttl := by
  rcases mem_answers_of_foldl message.answers ∅ found with none | listed
  · rw [Finmap.lookup_empty] at none
    cases none
  · exact listed

structure Evidence (Name : Type) where
  task : QueryTask Name
  joinedAt : Nat
  response : Response Name
  record : Record

section Evidence

variable {Name : Type} [DomainName Name]

/-- The record brought the address for the host, and no refresh since then came after its
expiration. -/
structure Evidence.Supports (evidence : Evidence Name) (tuning : DnsTuning)
    (joined : List (QueryTask Name × Nat)) (lastRefresh : Option Nat) (host : String)
    (ip : IpAddr) (expires : Nat) : Prop where
  joined : (evidence.task, evidence.joinedAt) ∈ joined
  host : evidence.task.query.hostname = host
  answered : evidence.task.Answered evidence.response
  listed : evidence.record ∈ evidence.response.message.answers
  address : evidence.record.addr evidence.task.query.recordType = some ip
  lasts : expires = DnsActor.expiresAt tuning evidence.joinedAt evidence.record.ttl
  fresh : ∀ refresh ∈ lastRefresh, refresh < expires ∨ refresh ≤ evidence.joinedAt

/-- The address is the host itself, or an answer brought it. -/
def Founded (tuning : DnsTuning) (joined : List (QueryTask Name × Nat)) (lastRefresh : Option Nat)
    (host : String) (ip : IpAddr) (expires : Nat) : Prop :=
  parseIpAddr host = some ip ∨ ∃ evidence : Evidence Name,
    evidence.Supports tuning joined lastRefresh host ip expires

theorem emitted_of_iterate {tuning : DnsTuning} {now : Nat} {input : DnsInput}
    {actor after : DnsActor} {emitted : Option DnsSnapshot}
    (iterated : actor.iterate tuning now input = some (after, emitted)) :
    ∀ snapshot ∈ emitted, snapshot = after.snapshot := by
  intro snapshot sent
  rcases DnsActor.iterate_snapshot iterated with rfl | ⟨rfl, _⟩
  · exact (Option.some.inj sent).symm
  · cases sent

namespace Resolver

variable {tuning : DnsTuning} {timeout now : Nat} {before after : Resolver Name}
  {action : ResolverAction Name}

def Known (tuning : DnsTuning) (state : Resolver Name) : Prop :=
  ∀ host entry ip expires, state.actor.hostnames.lookup host = some entry →
    entry.ips.lookup ip = some expires →
    Founded tuning state.joined state.lastRefresh host ip expires

structure Credible (tuning : DnsTuning) (state : Resolver Name) : Prop where
  known : Known tuning state
  answered : ∀ task ∈ state.tasks, ∀ response, task.result = some (.ok response) →
    task.Answered response
  refreshed : ∀ refresh ∈ state.lastRefresh, refresh ≤ state.clock
  emitted : ∀ snapshot ∈ state.emitted, snapshot = state.actor.snapshot

theorem known_of_registers {hosts : Finset String} {actor : DnsActor}
    {emitted : Option DnsSnapshot} (known : Known tuning before)
    (iterated : before.actor.iterate tuning now (.setHostnames hosts) = some (actor, emitted)) :
    Known tuning { before with actor, clock := now, emitted } := by
  intro host entry ip expires found valid
  have same {ip : IpAddr}
      (valid : ((before.actor.hostnames.lookup host).getD ⟨∅, now⟩).ips.lookup ip = some expires) :
      Founded tuning before.joined before.lastRefresh host ip expires := by
    cases registered : before.actor.hostnames.lookup host with
    | none => simp [registered] at valid
    | some old =>
      rw [registered] at valid
      exact known host old ip expires registered valid
  rw [DnsActor.lookup_iterate_setHostnames iterated] at found
  obtain ⟨listed, updated⟩ := Option.ite_none_right_eq_some.mp found
  cases parsed : parseIpAddr host with
  | none =>
    simp only [parsed, Option.some.injEq] at updated
    rw [← updated, HostnameState.refreshed_ips] at valid
    exact same valid
  | some literal =>
    simp only [parsed, Option.some.injEq] at updated
    rw [← updated] at valid
    by_cases own : ip = literal
    · exact .inl (own ▸ parsed)
    · rw [Finmap.lookup_insert_of_ne _ own] at valid
      exact same valid

theorem known_of_refreshes {actor : DnsActor} {emitted : Option DnsSnapshot}
    (known : Known tuning before)
    (iterated : before.actor.iterate tuning now .refresh = some (actor, emitted)) :
    Known tuning { before with actor, clock := now, emitted, lastRefresh := some now } := by
  intro host entry ip expires found valid
  rw [DnsActor.lookup_iterate (by simp) iterated] at found
  obtain ⟨old, registered, rfl⟩ := Option.map_eq_some_iff.mp found
  simp only [HostnameState.after, HostnameState.lookup_expired,
    HostnameState.refreshed_ips] at valid
  obtain ⟨valid, young⟩ := Option.filter_eq_some_iff.mp valid
  rcases known host old ip expires registered valid with literal | ⟨evidence, supports⟩
  · exact .inl literal
  · refine .inr ⟨evidence, { supports with fresh := ?_ }⟩
    rintro _ ⟨⟩
    exact .inl (by simpa using young)

theorem known_of_joins {task : QueryTask Name} {result : Except ResolveError (Response Name)}
    {actor : DnsActor} {emitted : Option DnsSnapshot} {tasks : List (QueryTask Name)}
    (known : Known tuning before)
    (answered : ∀ response, result = .ok response → task.Answered response)
    (refreshed : ∀ refresh ∈ before.lastRefresh, refresh ≤ now)
    (iterated : before.actor.iterate tuning now (.joined task.query (responseMessage result)) =
      some (actor, emitted)) :
    Known tuning
      { before with
        actor
        clock := now
        emitted
        tasks
        joined := before.joined ++ [(task, now)] } := by
  intro host entry ip expires found valid
  rw [DnsActor.lookup_iterate (by simp) iterated] at found
  obtain ⟨old, registered, rfl⟩ := Option.map_eq_some_iff.mp found
  -- An address that was known before has its evidence still.
  have same (valid : old.ips.lookup ip = some expires) :
      Founded tuning (before.joined ++ [(task, now)]) before.lastRefresh host ip expires := by
    rcases known host old ip expires registered valid with literal | ⟨evidence, supports⟩
    · exact .inl literal
    · exact .inr ⟨evidence, { supports with joined := List.mem_append_left _ supports.joined }⟩
  cases result with
  | error error => exact same valid
  | ok response =>
    simp only [responseMessage, HostnameState.after] at valid
    split at valid
    next own =>
      rw [HostnameState.lookup_recording] at valid
      cases recorded : (extractRecords response.message task.query.recordType).lookup ip with
      | none =>
        rw [recorded] at valid
        exact same valid
      | some ttl =>
        obtain ⟨record, listed, address, rfl⟩ := lookup_extractRecords recorded
        rw [recorded] at valid
        -- A new one is founded on the record that brought it.
        refine .inr ⟨⟨task, now, response, record⟩, ?_⟩
        exact {
          joined := List.mem_append_right _ (List.mem_singleton_self _)
          host := own
          answered := answered response rfl
          listed := listed
          address := address
          lasts := (Option.some.inj valid).symm
          fresh := fun refresh last => .inr (refreshed refresh last) }
    next => exact same valid

theorem known_of_moves (credible : Credible tuning before) (later : before.clock ≤ now)
    (moves : Moves tuning timeout now before action after) : Known tuning after := by
  cases moves with
  | registers iterated => exact known_of_registers credible.known iterated
  | refreshes iterated => exact known_of_refreshes credible.known iterated
  | paces iterated =>
    intro host entry ip expires found valid
    rw [DnsActor.lookup_iterate (by simp) iterated] at found
    obtain ⟨old, registered, rfl⟩ := Option.map_eq_some_iff.mp found
    exact credible.known host old ip expires registered valid
  | arrives found waits => exact credible.known
  | finishes found resolved => exact credible.known
  | joins found ended iterated =>
    refine known_of_joins credible.known ?_ (fun refresh last =>
      le_trans (credible.refreshed refresh last) later) iterated
    rintro response rfl
    exact credible.answered _ (List.mem_of_getElem? found) response ended

theorem answered_of_moves (credible : Credible tuning before)
    (moves : Moves tuning timeout now before action after) :
    ∀ task ∈ after.tasks, ∀ response, task.result = some (.ok response) →
      task.Answered response := by
  cases moves with
  | registers iterated => exact credible.answered
  | refreshes iterated => exact credible.answered
  | paces iterated =>
    intro task member response ended
    rcases List.mem_append.mp member with old | new
    · exact credible.answered task old response ended
    · obtain rfl := List.mem_singleton.mp new
      cases ended
  | arrives found waits =>
    intro task member response ended
    rcases List.mem_or_eq_of_mem_set member with old | rfl
    · exact credible.answered task old response ended
    · rw [waits] at ended
      cases ended
  | finishes found resolved =>
    intro task member response ended
    rcases List.mem_or_eq_of_mem_set member with old | rfl
    · exact credible.answered task old response ended
    · have answers := (QueryTask.resolve_spec resolved).1 response (Option.some.inj ended)
      exact ⟨answers.arrived, answers.id, answers.question, answers.complete⟩
  | joins found ended iterated =>
    exact fun task member => credible.answered task (List.mem_of_mem_eraseIdx member)

theorem credible_of_moves (credible : Credible tuning before) (later : before.clock ≤ now)
    (moves : Moves tuning timeout now before action after) : Credible tuning after where
  known := known_of_moves credible later moves
  answered := answered_of_moves credible moves
  refreshed := by
    have old : ∀ refresh ∈ before.lastRefresh, refresh ≤ now :=
      fun refresh last => le_trans (credible.refreshed refresh last) later
    cases moves with
    | refreshes iterated =>
      rintro _ ⟨⟩
      exact le_refl now
    | registers iterated => exact old
    | paces iterated => exact old
    | arrives found waits => exact old
    | finishes found resolved => exact old
    | joins found ended iterated => exact old
  emitted := by
    cases moves with
    | registers iterated => exact emitted_of_iterate iterated
    | refreshes iterated => exact emitted_of_iterate iterated
    | paces iterated => exact emitted_of_iterate iterated
    | joins found ended iterated => exact emitted_of_iterate iterated
    | arrives found waits => nofun
    | finishes found resolved => nofun

theorem credible_new : Credible tuning (new : Resolver Name) where
  known host entry ip expires found := by simp [new, DnsActor.new] at found
  answered := nofun
  refreshed := nofun
  emitted := nofun

end Resolver

/-- Whatever the network delivers, an address is published for a host only if the host is its text
or a record of a complete response brought it that arrived at the socket of a task for this host,
with the task's id and its question. The record had not expired at the last refresh, unless it was
recorded since. -/
theorem addresses_founded (tuning : DnsTuning) (timeout : Nat) {state : Resolver Name}
    (reached : Reaches (Resolver.step tuning timeout) (fun _ _ => True) .new state)
    {snapshot : DnsSnapshot} (sent : state.emitted = some snapshot) {host : String} {ip : IpAddr}
    (listed : Watch.Lists snapshot host ip) :
    parseIpAddr host = some ip ∨
      ∃ task joinedAt response record, (task, joinedAt) ∈ state.joined ∧
        task.query.hostname = host ∧ task.Answered response ∧
        record ∈ response.message.answers ∧ record.addr task.query.recordType = some ip ∧
        ∀ refresh ∈ state.lastRefresh, refresh < DnsActor.expiresAt tuning joinedAt record.ttl ∨
          refresh ≤ joinedAt := by
  have credible : state.Credible tuning :=
    reached.invariant Resolver.credible_new fun _ _ _ credible _ taken =>
    Resolver.credible_of_moves credible (Resolver.moves_of_step taken).1
      (Resolver.moves_of_step taken).2
  obtain ⟨ips, found, member⟩ := listed
  rw [credible.emitted snapshot sent, DnsActor.lookup_snapshot] at found
  obtain ⟨entry, registered, rfl⟩ := Option.map_eq_some_iff.mp found
  obtain ⟨expires, valid⟩ := Option.isSome_iff_exists.mp
    (Finmap.lookup_isSome.mpr (Finmap.mem_keys.mp member))
  rcases credible.known host entry ip expires registered valid with literal | ⟨evidence, supports⟩
  · exact .inl literal
  · refine .inr ⟨evidence.task, evidence.joinedAt, evidence.response, evidence.record,
      supports.joined, supports.host,
      supports.answered, supports.listed, supports.address, ?_⟩
    rw [← supports.lasts]
    exact supports.fresh

end Evidence

def raceTuning : DnsTuning := ⟨10 * nanosPerSec, 20 * nanosPerSec⟩

def nodeQuery : DnsQuery := ⟨"node", .a⟩

def nodeAnswer (id : UInt16) (addr : BitVec 32) : Received PlainName :=
  .decoded { echoOf "node" with id, message := ⟨.noError, [⟨60, .a addr⟩]⟩ }

def forgedFirst : List (Nat × ResolverAction PlainName) :=
  [(0, .setHostnames {"node"}), (1, .pace nodeQuery 7 (.ok ()) (.ok ())),
    (2, .arrive 0 (nodeAnswer 8 666)),
    (3, .arrive 0 (nodeAnswer 7 42)), (4, .finish 0), (5, .join 0)]

theorem addresses_founded_sample : ∃ state : Resolver PlainName,
    Reaches (Resolver.step raceTuning nanosPerSec) (fun _ _ => True) .new state ∧
      ∃ snapshot, state.emitted = some snapshot ∧ Watch.Lists snapshot "node" (.v4 42) ∧
      ∃ task joinedAt, (task, joinedAt) ∈ state.joined ∧ task.query.hostname = "node" := by
  have ran : (run (Resolver.step raceTuning nanosPerSec) forgedFirst .new).any (fun state =>
      state.emitted.any fun snapshot => (snapshot.lookup "node").any fun ips =>
        decide (IpAddr.v4 42 ∈ ips)) = true := by
    decide +kernel
  obtain ⟨state, executed, checked⟩ := (Option.any_eq_true ..).mp ran
  obtain ⟨snapshot, sent, checked⟩ := (Option.any_eq_true ..).mp checked
  obtain ⟨ips, found, checked⟩ := (Option.any_eq_true ..).mp checked
  have reached : Reaches (Resolver.step raceTuning nanosPerSec) (fun _ _ => True) .new state :=
    reaches_of_run (fun _ _ _ => trivial) executed
  have listed : Watch.Lists snapshot "node" (.v4 42) := ⟨ips, found, of_decide_eq_true checked⟩
  rcases addresses_founded raceTuning nanosPerSec reached sent listed with
    literal | ⟨task, joinedAt, _, _, joined, host, _⟩
  · have name : parseIpAddr "node" = none := by decide +kernel
    rw [name] at literal
    cases literal
  · exact ⟨state, reached, snapshot, sent, listed, task, joinedAt, joined, host⟩

end H3llo.Dns
