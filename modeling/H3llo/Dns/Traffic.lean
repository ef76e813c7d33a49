import H3llo.Dns.Resolver

/-! How often the resolver sends a query.

A query is queued by a refresh of its host or by a failure of its task. Refreshes are one
interval apart, and a failure takes the whole timeout, so both bound what is sent.
-/

set_option autoImplicit false

namespace H3llo.Dns
open H3llo.Net H3llo.Runs

/-! ## Queues and timers -/

namespace DnsActor

variable {tuning : DnsTuning} {actor after : DnsActor} {now : Nat} {input : DnsInput}
  {emitted : Option DnsSnapshot}

theorem queued_of_pace {query : DnsQuery}
    (iterated : actor.iterate tuning now (.pace query) = some (after, emitted)) :
    query ∈ actor.queuedQueries := by
  obtain ⟨middle, selected, _⟩ := Option.map_eq_some_iff.mp iterated
  exact (Option.ite_none_right_eq_some.mp selected).1

def Refreshed (tuning : DnsTuning) (now : Nat) (host : String) (actor after : DnsActor) : Prop :=
  (∃ entry, after.hostnames.lookup host = some entry ∧ entry.nextRefreshAt =
    now + tuning.refreshInterval) ∧
    ∀ old, actor.hostnames.lookup host = some old → old.nextRefreshAt ≤ now

/-- A query is queued because it was before, because its task failed, or because of a refresh. -/
theorem queued_iterate {query : DnsQuery}
    (iterated : actor.iterate tuning now input = some (after, emitted))
    (queued : query ∈ after.queuedQueries) :
    input ≠ .pace query ∧
      (query ∈ actor.queuedQueries ∨ input = .joined query none ∨
        Refreshed tuning now query.hostname actor after) := by
  obtain ⟨middle, selected, sent⟩ := Option.map_eq_some_iff.mp iterated
  obtain rfl : middle.emitSnapshot.1 = after := congrArg Prod.fst sent
  rw [middle.sameQueries_emitSnapshot.queuedQueries] at queued
  cases input with
  | setHostnames hosts =>
    cases selected
    refine ⟨by simp, ?_⟩
    rcases (mem_queuedQueries_handleSetHostnames tuning actor now hosts query).mp queued with
      ⟨old, _⟩ | ⟨_, listed, name, due⟩
    · exact .inl old
    -- Newly queued by the update: its host was due, and its next refresh is an interval away.
    · refine .inr
        (.inr ⟨⟨_, lookup_iterate_setHostnames iterated query.hostname |>.trans (if_pos listed),
        ?_⟩, due⟩)
      have unparsed : parseIpAddr query.hostname = none := by simpa [isLiteral] using name
      cases registered : actor.hostnames.lookup query.hostname with
      | none => simp [unparsed, HostnameState.refreshed, isDue, name]
      | some old => simp [unparsed, HostnameState.refreshed, isDue, name, due old registered]
  | refresh =>
    cases selected
    refine ⟨by simp, ?_⟩
    rcases (mem_queuedQueries_triggerRefresh tuning actor now query).mp queued with
      old | ⟨_, entry, registered, due⟩
    · exact .inl old
    · refine .inr
        (.inr
          ⟨⟨_, (lookup_iterate (by simp) iterated query.hostname).trans (by rw [registered]; rfl),
          ?_⟩, ?_⟩)
      · simp [HostnameState.after, HostnameState.expired, HostnameState.refreshed, due]
      · intro old found
        rw [registered] at found
        cases found
        simp only [isDue, Bool.and_eq_true, decide_eq_true_eq] at due
        exact due.2
  | joined other result =>
    refine ⟨by simp, ?_⟩
    obtain ⟨_, same⟩ := Option.ite_none_right_eq_some.mp selected
    cases same
    unfold handleQueryResult at queued
    simp only at queued
    split at queued
    next => exact .inl queued
    next =>
      cases result with
      | some message =>
        rw [(sameQueries_handleResponse tuning _ now message other).queuedQueries] at queued
        exact .inl queued
      | none =>
        -- A failed query is queued again at once, whether or not its host is due.
        rcases Finset.mem_insert.mp queued with rfl | old
        · exact .inr (.inl rfl)
        · exact .inl old
  | pace other =>
    obtain ⟨_, same⟩ := Option.ite_none_right_eq_some.mp selected
    cases same
    obtain ⟨differs, old⟩ := Finset.mem_erase.mp queued
    exact ⟨fun same => differs (DnsInput.pace.inj same).symm, .inl old⟩

theorem timer_iterate {host : String} {entry : HostnameState}
    (iterated : actor.iterate tuning now input = some (after, emitted))
    (kept : ∀ hosts, input = .setHostnames hosts → host ∈ hosts)
    (registered : actor.hostnames.lookup host = some entry) :
    ∃ next, after.hostnames.lookup host = some next ∧
      (next.nextRefreshAt = entry.nextRefreshAt ∨
        entry.nextRefreshAt ≤ now ∧ next.nextRefreshAt = now + tuning.refreshInterval) := by
  have timer (entry : HostnameState) : (entry.refreshed tuning now host).nextRefreshAt =
      entry.nextRefreshAt ∨
      entry.nextRefreshAt ≤ now ∧ (entry.refreshed tuning now host).nextRefreshAt =
        now + tuning.refreshInterval := by
    unfold HostnameState.refreshed
    split
    next due =>
      simp only [isDue, Bool.and_eq_true, decide_eq_true_eq] at due
      exact .inr ⟨due.2, rfl⟩
    next => exact .inl rfl
  cases input with
  | setHostnames hosts =>
    refine ⟨_, (lookup_iterate_setHostnames iterated host).trans (if_pos (kept hosts rfl)), ?_⟩
    rw [registered]
    cases parseIpAddr host with
    | none => exact timer entry
    | some ip => exact .inl rfl
  | refresh =>
    refine ⟨_, (lookup_iterate (by simp) iterated host).trans (by rw [registered]; rfl), ?_⟩
    exact timer entry
  | joined query result =>
    refine ⟨_, (lookup_iterate (by simp) iterated host).trans (by rw [registered]; rfl), .inl ?_⟩
    cases result with
    | none => rfl
    | some message =>
      unfold HostnameState.after
      simp only
      split <;> rfl
  | pace query =>
    exact ⟨_, (lookup_iterate (by simp) iterated host).trans (by rw [registered]; rfl), .inl rfl⟩

theorem tasks_iterate (iterated : actor.iterate tuning now input = some (after, emitted)) :
    after.tasks =
      match input with
      | .pace query => query ::ₘ actor.tasks
      | .joined query _ => actor.tasks.erase query
      | _ => actor.tasks := by
  obtain ⟨middle, selected, sent⟩ := Option.map_eq_some_iff.mp iterated
  obtain rfl : middle.emitSnapshot.1 = after := congrArg Prod.fst sent
  rw [middle.sameQueries_emitSnapshot.tasks]
  cases input with
  | setHostnames hosts =>
    cases selected
    rfl
  | refresh =>
    cases selected
    rfl
  | joined query result =>
    obtain ⟨_, same⟩ := Option.ite_none_right_eq_some.mp selected
    cases same
    unfold handleQueryResult
    simp only
    split
    next => rfl
    next =>
      cases result with
      | none => rfl
      | some message => exact (sameQueries_handleResponse tuning _ now message query).tasks
  | pace query =>
    obtain ⟨_, same⟩ := Option.ite_none_right_eq_some.mp selected
    cases same
    rfl

end DnsActor

/-! ## Tasks and their deadlines -/

section Traffic

variable {Name : Type}

def ResolverAction.sends (query : DnsQuery) : ResolverAction Name → Bool
  | .pace sent _ _ _ => decide (sent = query)
  | _ => false

def ResolverAction.Keeps (host : String) : ResolverAction Name → Prop
  | .setHostnames hosts => host ∈ hosts
  | _ => True

namespace Resolver

variable {tuning : DnsTuning} {timeout now : Nat} {before after : Resolver Name}
  {action : ResolverAction Name}

/-- The tasks are those of the actor, one for each pending query, and no failure came before its
deadline. -/
structure Linked (timeout : Nat) (state : Resolver Name) : Prop where
  tracked : ∃ answered, Resolution.Tracked ⟨state.actor, answered⟩
  tasks : (state.tasks.map QueryTask.query : Multiset DnsQuery) = state.actor.tasks
  held : ∀ task ∈ state.tasks, ∀ error, task.result = some (.error error) →
    task.started + timeout ≤ state.clock

theorem Linked.nodup (linked : before.Linked timeout) : before.actor.tasks.Nodup := by
  obtain ⟨answered, tracked⟩ := linked.tracked
  rw [tracked.tasks]
  exact before.actor.pendingQueries.nodup

theorem tracked_of_iterate {input : DnsInput} {actor after : DnsActor}
    {emitted : Option DnsSnapshot} (tracked : ∃ answered, Resolution.Tracked ⟨actor, answered⟩)
    (iterated : actor.iterate tuning now input = some (after, emitted)) :
    ∃ answered, Resolution.Tracked ⟨after, answered⟩ := by
  obtain ⟨answered, tracked⟩ := tracked
  have taken : Resolution.step tuning (now, input) ⟨actor, answered⟩ =
      some ⟨after, Resolution.answers ⟨actor, answered⟩ input⟩ := by
    rw [Resolution.step, iterated]
    rfl
  exact ⟨_, tracked.step taken⟩

theorem map_query_set {tasks : List (QueryTask Name)} {index : Nat} {task next : QueryTask Name}
    (found : tasks[index]? = some task) (same : next.query = task.query) :
    (tasks.set index next).map QueryTask.query = tasks.map QueryTask.query := by
  obtain ⟨bound, rfl⟩ := List.getElem?_eq_some_iff.mp found
  have inside : index < (tasks.map QueryTask.query).length := by simpa using bound
  rw [List.map_set, same, ← List.getElem_map QueryTask.query (h := inside), List.set_getElem_self]

theorem map_query_eraseIdx {tasks : List (QueryTask Name)} {index : Nat} {task : QueryTask Name}
    (found : tasks[index]? = some task) :
    ((tasks.eraseIdx index).map QueryTask.query : Multiset DnsQuery) =
      (tasks.map QueryTask.query : Multiset DnsQuery).erase task.query := by
  obtain ⟨bound, rfl⟩ := List.getElem?_eq_some_iff.mp found
  have split := (List.getElem_cons_eraseIdx_perm bound).map QueryTask.query
  rw [← Multiset.coe_eq_coe.mpr split, List.map_cons, ← Multiset.cons_coe, Multiset.erase_cons_head]

theorem linked_new : (new : Resolver Name).Linked timeout :=
  ⟨⟨∅, Resolution.Tracked.new⟩, rfl, nofun⟩

/-- What has been sent since a time is paid for by refreshes and by failures, and both take their
time. -/
structure Budget (tuning : DnsTuning) (timeout since : Nat) (query : DnsQuery)
    (sent refreshes failures : Nat) (state : Resolver Name) : Prop where
  clock : since ≤ state.clock
  paid : sent + (if query ∈ state.actor.queuedQueries then 1 else 0) ≤ 1 + refreshes + failures
  refreshed : 0 < refreshes → ∃ entry, state.actor.hostnames.lookup query.hostname = some entry ∧
    since + refreshes * tuning.refreshInterval ≤ entry.nextRefreshAt ∧
    entry.nextRefreshAt ≤ state.clock + tuning.refreshInterval
  failed : 0 < failures → since + failures * timeout ≤ state.clock + timeout ∧
    ∀ task ∈ state.tasks, task.query = query → since + failures * timeout ≤ task.started + timeout

namespace Budget

variable {since sent refreshes failures : Nat} {query : DnsQuery}
variable (budget : Budget tuning timeout since query sent refreshes failures before)
include budget

/-- A timer that runs is not moved early, so refreshes that were counted stay counted. -/
theorem keeps_refreshed {input : DnsInput} {emitted : Option DnsSnapshot}
    (later : before.clock ≤ now)
    (iterated : before.actor.iterate tuning now input = some (after.actor, emitted))
    (time : after.clock = now)
    (kept : ∀ hosts, input = .setHostnames hosts → query.hostname ∈ hosts) (some : 0 < refreshes) :
    ∃ entry, after.actor.hostnames.lookup query.hostname = .some entry ∧
      since + refreshes * tuning.refreshInterval ≤ entry.nextRefreshAt ∧
      entry.nextRefreshAt ≤ after.clock + tuning.refreshInterval := by
  obtain ⟨entry, registered, past, near⟩ := budget.refreshed some
  obtain ⟨next, found, same | ⟨due, moved⟩⟩ := DnsActor.timer_iterate iterated kept registered
  · exact ⟨next, found, by omega, by omega⟩
  · exact ⟨next, found, by omega, by omega⟩

theorem keeps_failed (later : before.clock ≤ now) (time : after.clock = now)
    (tasks : ∀ task ∈ after.tasks, task.query = query →
      (∃ old ∈ before.tasks, old.query = query ∧ old.started = task.started) ∨ task.started = now)
    (some : 0 < failures) :
    since + failures * timeout ≤ after.clock + timeout ∧
      ∀ task ∈ after.tasks, task.query = query → since + failures * timeout ≤
        task.started + timeout := by
  obtain ⟨past, running⟩ := budget.failed some
  refine ⟨by omega, fun task member own => ?_⟩
  rcases tasks task member own with ⟨old, was, same, started⟩ | started
  · have := running old was same
    omega
  · omega

theorem update {index : Nat} {task next : QueryTask Name} (later : before.clock ≤ now)
    (found : before.tasks[index]? = some task) (sameQuery : next.query = task.query)
    (sameStart : next.started = task.started) :
    Budget tuning timeout since query sent refreshes failures (before.update now index next) := by
  refine ⟨le_trans budget.clock later, budget.paid, ?_, budget.keeps_failed later rfl ?_⟩
  · intro some
    obtain ⟨entry, registered, past, near⟩ := budget.refreshed some
    exact ⟨entry, registered, past, le_trans near (Nat.add_le_add_right later _)⟩
  · intro other member own
    rcases List.mem_or_eq_of_mem_set member with old | rfl
    · exact .inl ⟨other, old, own, rfl⟩
    · exact .inl ⟨task, List.mem_of_getElem? found, sameQuery.symm.trans own, sameStart.symm⟩

theorem iterate {input : DnsInput} {emitted : Option DnsSnapshot} {more : Nat}
    (later : before.clock ≤ now)
    (iterated : before.actor.iterate tuning now input = some (after.actor, emitted))
    (time : after.clock = now)
    (kept : ∀ hosts, input = .setHostnames hosts → query.hostname ∈ hosts)
    (counted : more = 0 ∨ more = 1 ∧ input = .pace query)
    (tasks : ∀ task ∈ after.tasks, task.query = query →
      (∃ old ∈ before.tasks, old.query = query ∧ old.started = task.started) ∨ task.started = now)
    (ended : input = .joined query none → (∀ task ∈ after.tasks, task.query ≠ query) ∧
      ∃ old ∈ before.tasks, old.query = query ∧ old.started + timeout ≤ now) :
    ∃ refreshes failures, Budget tuning timeout since query
      (sent + more) refreshes failures after := by
  have clock : since ≤ after.clock := by
    have := budget.clock
    omega
  have refreshed := budget.keeps_refreshed later iterated time kept
  have failed := budget.keeps_failed later time tasks
  have paid := budget.paid
  -- A queued query is paid for by what has queued it: the query before, a failure or a refresh.
  by_cases queued : query ∈ after.actor.queuedQueries
  · obtain ⟨other, cause⟩ := DnsActor.queued_iterate iterated queued
    obtain rfl : more = 0 := counted.resolve_right fun paced => other paced.2
    rcases cause with old | failure | ⟨⟨entry, found, moved⟩, due⟩
    · rw [if_pos old] at paid
      exact ⟨refreshes, failures, clock, by rw [if_pos queued]; omega, refreshed, failed⟩
    · obtain ⟨gone, old, member, own, overdue⟩ := ended failure
      refine ⟨refreshes, failures + 1, clock, by rw [if_pos queued]; omega, refreshed,
        fun _ => ⟨?_, ?_⟩⟩
      · -- the failed task had started after the failures before it
        rw [Nat.add_mul, Nat.one_mul]
        rcases Nat.eq_zero_or_pos failures with rfl | some
        · omega
        · have := (budget.failed some).2 old member own
          omega
      · exact fun task member own => absurd own (gone task member)
    · refine ⟨refreshes + 1, failures, clock, by rw [if_pos queued]; omega,
        fun _ => ⟨entry, found, ?_, by omega⟩, failed⟩
      -- The refresh before this one was an interval ago, since its host was due.
      rw [Nat.add_mul, Nat.one_mul]
      rcases Nat.eq_zero_or_pos refreshes with rfl | some
      · omega
      · obtain ⟨old, registered, past, _⟩ := budget.refreshed some
        have := due old registered
        omega
  · refine ⟨refreshes, failures, clock, ?_, refreshed, failed⟩
    rw [if_neg queued]
    rcases counted with rfl | ⟨rfl, paced⟩
    · split at paid <;> omega
    -- Sending takes the query out of the queue, so that what was paid for it is free.
    · subst paced
      rw [if_pos (DnsActor.queued_of_pace iterated)] at paid
      omega

end Budget

variable [DomainName Name]

theorem linked_of_moves (linked : before.Linked timeout) (later : before.clock ≤ now)
    (moves : Moves tuning timeout now before action after) : after.Linked timeout := by
  -- A task that has failed was late when it failed, and time only passes.
  have held : ∀ task ∈ before.tasks, ∀ error, task.result = some (.error error) →
      task.started + timeout ≤ now :=
    fun task member error failed => le_trans (linked.held task member error failed) later
  cases moves with
  | registers iterated =>
    exact ⟨tracked_of_iterate linked.tracked iterated,
      linked.tasks.trans (DnsActor.tasks_iterate iterated).symm, held⟩
  | refreshes iterated =>
    exact ⟨tracked_of_iterate linked.tracked iterated,
      linked.tasks.trans (DnsActor.tasks_iterate iterated).symm, held⟩
  | paces iterated =>
    refine ⟨tracked_of_iterate linked.tracked iterated, ?_, ?_⟩
    · rw [DnsActor.tasks_iterate iterated, ← linked.tasks, List.map_append, ← Multiset.coe_add,
        add_comm]
      rfl
    · intro task member error failed
      rcases List.mem_append.mp member with old | new
      · exact held task old error failed
      · obtain rfl := List.mem_singleton.mp new
        cases failed
  | arrives found waits =>
    refine ⟨linked.tracked, Eq.trans ?_ linked.tasks, ?_⟩
    · exact congrArg _ (map_query_set found rfl)
    intro task member error failed
    rcases List.mem_or_eq_of_mem_set member with old | rfl
    · exact held task old error failed
    · rw [waits] at failed
      cases failed
  | finishes found resolved =>
    refine ⟨linked.tracked, Eq.trans ?_ linked.tasks, ?_⟩
    · exact congrArg _ (map_query_set found rfl)
    intro task member error failed
    rcases List.mem_or_eq_of_mem_set member with old | rfl
    · exact held task old error failed
    · exact (QueryTask.resolve_spec resolved).2 error (Option.some.inj failed)
  | joins found ended iterated =>
    refine ⟨tracked_of_iterate linked.tracked iterated, ?_, fun task member =>
      held task (List.mem_of_mem_eraseIdx member)⟩
    rw [DnsActor.tasks_iterate iterated, ← linked.tasks]
    exact map_query_eraseIdx found

theorem budget_of_moves {since sent refreshes failures : Nat} {query : DnsQuery}
    (budget : Budget tuning timeout since query sent refreshes failures before)
    (linked : before.Linked timeout) (later : before.clock ≤ now)
    (kept : action.Keeps query.hostname) (moves : Moves tuning timeout now before action after) :
    ∃ refreshes failures,
      Budget tuning timeout since query (sent + if action.sends query then 1 else 0) refreshes
        failures after := by
  have same : ∀ task ∈ before.tasks, task.query = query →
      (∃ old ∈ before.tasks, old.query = query ∧ old.started = task.started) ∨ task.started = now :=
    fun task member own => .inl ⟨task, member, own, rfl⟩
  cases moves with
  | registers iterated =>
    refine budget.iterate later iterated rfl ?_ (.inl rfl) same nofun
    rintro _ ⟨⟩
    exact kept
  | refreshes iterated => exact budget.iterate later iterated rfl nofun (.inl rfl) same nofun
  -- Only the sending of this query counts.
  | @paces paced id socket opened actor emitted iterated =>
    refine budget.iterate later iterated rfl nofun ?_ ?_ nofun
    · by_cases own : paced = query
      · exact .inr ⟨by simp [ResolverAction.sends, own], by rw [own]⟩
      · exact .inl (by simp [ResolverAction.sends, own])
    · intro task member own
      rcases List.mem_append.mp member with old | new
      · exact same task old own
      · obtain rfl := List.mem_singleton.mp new
        exact .inr rfl
  | arrives found waits => exact ⟨refreshes, failures, budget.update later found rfl rfl⟩
  | finishes found resolved => exact ⟨refreshes, failures, budget.update later found rfl rfl⟩
  | @joins index task result actor emitted found ended iterated =>
    refine budget.iterate later iterated rfl nofun (.inl rfl) ?_ ?_
    · exact fun other member => same other (List.mem_of_mem_eraseIdx member)
    · intro failure
      obtain ⟨own, unanswered⟩ := DnsInput.joined.inj failure
      have joined := List.mem_of_getElem? found
      refine ⟨fun other member also => ?_, task, joined, own, ?_⟩
      · -- a second task of this query would be a second pending entry
        have inside : query ∈ ((before.tasks.eraseIdx index).map QueryTask.query :
            Multiset DnsQuery) :=
          Multiset.mem_coe.mpr (List.mem_map.mpr ⟨other, member, also⟩)
        rw [map_query_eraseIdx found, linked.tasks, own] at inside
        exact linked.nodup.notMem_erase inside
      · cases result with
        | ok response => cases unanswered
        | error error => exact le_trans (linked.held task joined error ended) later

end Resolver

theorem steps_le {count interval since clock : Nat} (positive : 0 < interval)
    (spaced : 0 < count → since + count * interval ≤ clock + interval) :
    count ≤ 1 + (clock - since) / interval := by
  rcases Nat.eq_zero_or_pos count with rfl | some
  · exact Nat.zero_le _
  · have apart := spaced some
    rw [Nat.add_comm 1, ← Nat.add_div_right _ positive, Nat.le_div_iff_mul_le positive]
    omega

variable [DomainName Name]

theorem Resolver.budget_of_run {tuning : DnsTuning} {timeout since sent refreshes failures : Nat}
    {query : DnsQuery} {actions : List (Nat × ResolverAction Name)} {start state : Resolver Name}
    (budget : Budget tuning timeout since query sent refreshes failures start)
    (linked : start.Linked timeout) (kept : ∀ action ∈ actions, action.2.Keeps query.hostname)
    (executed : run (step tuning timeout) actions start = some state) :
    ∃ refreshes failures,
      Budget tuning timeout since query (sent + actions.countP fun action => action.2.sends query)
        refreshes failures state := by
  induction actions generalizing start sent refreshes failures with
  | nil =>
    cases executed
    exact ⟨refreshes, failures, budget⟩
  | cons action rest ih =>
    obtain ⟨middle, taken, remaining⟩ := Option.bind_eq_some_iff.mp executed
    obtain ⟨later, moves⟩ := moves_of_step taken
    obtain ⟨refreshes, failures, next⟩ := budget_of_moves budget linked later
      (kept action List.mem_cons_self) moves
    obtain ⟨refreshes, failures, last⟩ := ih next (linked_of_moves linked later moves)
      (fun other member => kept other (List.mem_cons_of_mem action member)) remaining
    refine ⟨refreshes, failures, ?_⟩
    rw [List.countP_cons, Nat.add_comm (List.countP _ rest), ← Nat.add_assoc]
    exact last

/-- No query storms: in any period in which its host stays registered, a query is sent at most once
for each refresh interval and once for each timeout that fit into the period, and three times more.
It does not matter how the server and the network behave. -/
theorem queries_bounded {tuning : DnsTuning} {timeout : Nat}
    (interval : 0 < tuning.refreshInterval) (waits : 0 < timeout) {start state : Resolver Name}
    (reached : Reaches (Resolver.step tuning timeout) (fun _ _ => True) .new start)
    {query : DnsQuery} {actions : List (Nat × ResolverAction Name)}
    (kept : ∀ action ∈ actions, action.2.Keeps query.hostname)
    (executed : run (Resolver.step tuning timeout) actions start = some state) :
    (actions.countP fun action => action.2.sends query) ≤
      3 + (state.clock - start.clock) / tuning.refreshInterval + (state.clock - start.clock) /
        timeout := by
  have linked : start.Linked timeout :=
    reached.invariant Resolver.linked_new fun _ _ _ linked _ taken =>
    Resolver.linked_of_moves linked (Resolver.moves_of_step taken).1
      (Resolver.moves_of_step taken).2
  have initial : start.Budget tuning timeout start.clock query 0 0 0 := by
    refine ⟨le_refl _, ?_, nofun, nofun⟩
    split <;> omega
  obtain ⟨refreshes, failures, budget⟩ := Resolver.budget_of_run initial linked kept executed
  have refreshed : refreshes ≤ 1 + (state.clock - start.clock) / tuning.refreshInterval := by
    refine steps_le interval fun some => ?_
    obtain ⟨entry, _, past, near⟩ := budget.refreshed some
    exact le_trans past near
  have failed : failures ≤ 1 + (state.clock - start.clock) / timeout :=
    steps_le waits fun some => (budget.failed some).1
  have paid := budget.paid
  omega

end Traffic

def silentServer : List (Nat × ResolverAction PlainName) :=
  [(1, .pace nodeQuery 7 (.ok ()) (.ok ())), (1 + nanosPerSec, .finish 0),
    (1 + nanosPerSec, .join 0),
    (2 + nanosPerSec, .pace nodeQuery 8 (.ok ()) (.ok ()))]

theorem queries_bounded_sample : ∃ start state : Resolver PlainName,
    run (Resolver.step raceTuning nanosPerSec) silentServer start = some state ∧
      (silentServer.countP fun action => action.2.sends nodeQuery) = 2 ∧
      2 ≤ 3 + (state.clock - start.clock) /
        raceTuning.refreshInterval + (state.clock - start.clock) / nanosPerSec := by
  have ran : (run (Resolver.step raceTuning nanosPerSec) [(0, .setHostnames {"node"})] .new).any
      (fun start =>
      (run (Resolver.step raceTuning nanosPerSec) silentServer start).isSome) = true := by
    decide +kernel
  obtain ⟨start, registered, checked⟩ := (Option.any_eq_true ..).mp ran
  obtain ⟨state, executed⟩ := Option.isSome_iff_exists.mp checked
  have reached : Reaches (Resolver.step raceTuning nanosPerSec) (fun _ _ => True) .new start :=
    reaches_of_run (fun _ _ _ => trivial) registered
  have count : (silentServer.countP fun action => action.2.sends nodeQuery) = 2 := by decide +kernel
  have kept : ∀ action ∈ silentServer, action.2.Keeps nodeQuery.hostname := by
    simp [silentServer, ResolverAction.Keeps]
  have bounded := queries_bounded (by decide) (by decide) reached kept executed
  rw [count] at bounded
  exact ⟨start, state, executed, count, bounded⟩

end H3llo.Dns
