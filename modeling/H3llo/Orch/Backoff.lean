import H3llo.Orch.PeerView

/-! Backoff between failed dials.

While an address stays resolved for a peer, its dial state counts the failures in a row
and says when the next dial may start. Maintenance and new configurations keep the state;
only a dialed connection removes it.
-/

set_option autoImplicit false

namespace H3llo.Orch
open H3llo.Net H3llo.Config H3llo.Dns H3llo.Router H3llo.Runs

variable {Trie : Type → Type}

/-! ## Delays -/

namespace Backoff

/-- Delay after `failures` failures in a row. -/
def wait (backoff : Backoff) (failures : Nat) : Nat :=
  Min.min backoff.max (backoff.min * 2 ^ Min.min (failures - 1) 30)

/-- `1u32.checked_shl(shift)` -/
def checkedShl (shift : Nat) : Option Nat := if shift < 32 then some (2 ^ shift % 2 ^ 32) else none

variable {backoff : Backoff}

/-- Saturation of the product has no effect, since no duration exceeds the largest one. -/
theorem delay_eq_wait (bounded : backoff.max ≤ durationMax) (failures : Nat) :
    backoff.delay failures = backoff.wait (failures + 1) := by
  unfold delay wait
  rw [Nat.add_sub_cancel]
  omega

theorem wait_mono {first second : Nat} (le : first ≤ second) :
    backoff.wait first ≤ backoff.wait second := by
  have exponents : Min.min (first - 1) 30 ≤ Min.min (second - 1) 30 := by omega
  have powers : 2 ^ Min.min (first - 1) 30 ≤ 2 ^ Min.min (second - 1) 30 :=
    Nat.pow_le_pow_right (by decide) exponents
  have products := Nat.mul_le_mul_left backoff.min powers
  unfold wait
  omega

theorem min_le_wait (ordered : backoff.min ≤ backoff.max) (failures : Nat) :
    backoff.min ≤ backoff.wait failures := by
  have product : backoff.min * 1 ≤ backoff.min * 2 ^ Min.min (failures - 1) 30 :=
    Nat.mul_le_mul_left _ Nat.one_le_two_pow
  unfold wait
  omega

theorem wait_le_max (failures : Nat) : backoff.wait failures ≤ backoff.max := Nat.min_le_left _ _

theorem checkedShl_attempt (attempt : Nat) :
    checkedShl (Min.min attempt 30) = some (2 ^ Min.min attempt 30) := by
  have small : Min.min attempt 30 < 32 := by omega
  rw [checkedShl, if_pos small, Nat.mod_eq_of_lt (Nat.pow_lt_pow_right (by decide) small)]

end Backoff

theorem Backoff.delay_saturated (backoff : Backoff) (failures : Nat) :
    backoff.delay (Min.min failures u32Max) = backoff.delay failures := by
  have exponent : Min.min (Min.min failures u32Max) 30 = Min.min failures 30 := by
    unfold u32Max
    omega
  rw [delay, delay, exponent]

/-! ## One address of one peer -/

namespace PeerEntry

/-- The dial state after `failures` failures in a row, the last one at `failedAt`, with `out`
outstanding dials. -/
structure Waits (backoff : Backoff) (ip : IpAddr) (failures failedAt out : Nat)
    (entry : PeerEntry) : Prop where
  resolved : entry.dials.lookup ip = none ∨ ip ∈ entry.resolvedIps
  single : out ≤ 1
  running : 0 < out → ∃ state, entry.dials.lookup ip = some state ∧ state.inFlight = true
  absent : entry.dials.lookup ip = none → failures = 0
  counted : ∀ state, entry.dials.lookup ip = some state → state.attempt = Min.min failures u32Max ∧
    (0 < failures → state.nextAllowedAt = failedAt + backoff.delay (failures - 1))

namespace Waits

variable {backoff : Backoff} {ip : IpAddr} {failures failedAt out : Nat} {entry next : PeerEntry}

theorem congr (waits : entry.Waits backoff ip failures failedAt out)
    (kept : ip ∈ entry.resolvedIps → ip ∈ next.resolvedIps)
    (same : next.dials.lookup ip = entry.dials.lookup ip) :
    next.Waits backoff ip failures failedAt out where
  resolved := by
    rw [same]
    exact waits.resolved.imp_right kept
  single := waits.single
  running := by
    rw [same]
    exact waits.running
  absent := by
    rw [same]
    exact waits.absent
  counted := by
    rw [same]
    exact waits.counted

theorem fewer (waits : entry.Waits backoff ip failures failedAt out) {less : Nat}
    (le : less ≤ out) : entry.Waits backoff ip failures failedAt less :=
  ⟨waits.resolved, Nat.le_trans le waits.single, fun positive =>
    waits.running (Nat.lt_of_lt_of_le positive le), waits.absent,
    waits.counted⟩

theorem prune (waits : entry.Waits backoff ip failures failedAt out) (isClosed : Sender → Bool) :
    (entry.prune isClosed).1.Waits backoff ip failures failedAt out := by
  refine waits.congr (fun member => member) ?_
  rw [prune_dials]
  rcases waits.resolved with none | resolved
  · rw [none, Option.filter_none]
  · cases entry.dials.lookup ip <;> simp [resolved]

/-- A dial starts only when none is outstanding, and keeps the count. -/
theorem tryConnect (waits : entry.Waits backoff ip failures failedAt out) (now : Nat) :
    (entry.tryConnect now).1.Waits backoff ip failures failedAt
      (out + if ip ∈ entry.uncovered now then 1 else 0) := by
  by_cases dialed : ip ∈ entry.uncovered now
  · have idle : out = 0 := by
      by_contra busy
      obtain ⟨state, stored, inFlight⟩ := waits.running (Nat.pos_of_ne_zero busy)
      rw [uncovered_idle dialed stored] at inFlight
      cases inFlight
    have lookup : (entry.tryConnect now).1.dials.lookup ip = some (entry.dialed now ip) := by
      rw [tryConnect_dials, if_pos dialed]
    rw [if_pos dialed, idle]
    have resolved : ip ∈ entry.resolvedIps :=
      (Finset.mem_sdiff.mp (Finset.mem_filter.mp dialed).1).1
    refine ⟨.inr resolved, Nat.le_refl 1, fun _ => ⟨_, lookup, dialed_inFlight now entry ip⟩, ?_,
      ?_⟩
    · intro none
      rw [lookup] at none
      cases none
    · intro state stored
      rw [lookup, Option.some.injEq] at stored
      subst stored
      unfold PeerEntry.dialed
      cases before : entry.dials.lookup ip with
      | none =>
        rw [waits.absent before]
        exact ⟨rfl, fun positive => absurd positive (Nat.lt_irrefl 0)⟩
      | some state => exact waits.counted state before
  · rw [if_neg dialed]
    refine waits.congr (fun member => member) ?_
    rw [tryConnect_dials, if_neg dialed]

theorem elapsed (waits : entry.Waits backoff ip failures failedAt out) {now : Nat}
    (dialed : ip ∈ entry.uncovered now) (failed : 0 < failures) :
    failedAt + backoff.delay (failures - 1) ≤ now := by
  have may := (Finset.mem_filter.mp dialed).2
  unfold mayDial at may
  cases stored : entry.dials.lookup ip with
  | none =>
    rw [waits.absent stored] at failed
    exact absurd failed (Nat.lt_irrefl 0)
  | some state =>
    simp only [stored, DialState.blocks, Bool.not_eq_true', Bool.or_eq_false_iff,
      decide_eq_false_iff_not] at may
    rw [← (waits.counted state stored).2 failed]
    omega

theorem failDial (waits : entry.Waits backoff ip failures failedAt 1) (now : Nat) :
    (Orchestrator.failDial backoff now ip entry).Waits backoff ip (failures + 1) now 0 := by
  obtain ⟨state, stored, _⟩ := waits.running Nat.one_pos
  have lookup : (Orchestrator.failDial backoff now ip entry).dials.lookup ip =
      some (state.recordFailure backoff now) := by
    simp [Orchestrator.failDial, stored]
  have attempt := (waits.counted state stored).1
  refine ⟨.inr ?_, Nat.zero_le 1, fun positive => absurd positive (Nat.lt_irrefl 0), fun none => ?_,
    fun later found => ?_⟩
  · simpa [Orchestrator.failDial, stored] using waits.resolved
  · rw [lookup] at none
    cases none
  · rw [lookup, Option.some.injEq] at found
    subst found
    refine ⟨?_, fun _ => ?_⟩
    · simp only [DialState.recordFailure, attempt]
      omega
    · rw [Nat.add_sub_cancel, ← backoff.delay_saturated failures, ← attempt]
      rfl

theorem failDial_other (waits : entry.Waits backoff ip failures failedAt out) (now : Nat)
    {failed : IpAddr} (other : failed ≠ ip) :
    (Orchestrator.failDial backoff now failed entry).Waits backoff ip failures failedAt out := by
  unfold Orchestrator.failDial
  split
  next => exact waits
  next => exact waits.congr (fun member => member) (Finmap.lookup_insert_of_ne _ (Ne.symm other))

theorem pushDialed (waits : entry.Waits backoff ip failures failedAt 1) (endpoint : Endpoint)
    {dest : SocketAddr} (same : dest.ip = ip) (tx : Sender) :
    (Orchestrator.pushBound (some endpoint) dest tx entry).Waits backoff ip 0 failedAt 0 := by
  subst same
  have lookup : (Orchestrator.pushBound (some endpoint) dest tx entry).dials.lookup dest.ip =
      Option.none := by
    simp [Orchestrator.pushBound]
  refine ⟨.inl lookup, Nat.zero_le 1, fun positive => absurd positive (Nat.lt_irrefl 0),
    fun _ => rfl, fun state stored => ?_⟩
  rw [lookup] at stored
  cases stored

theorem pushOther (waits : entry.Waits backoff ip failures failedAt out)
    {endpoint : Option Endpoint} {dest : SocketAddr} (other : endpoint.isSome → dest.ip ≠ ip)
    (tx : Sender) :
    (Orchestrator.pushBound endpoint dest tx entry).Waits backoff ip failures failedAt out := by
  refine waits.congr (fun member => member) ?_
  unfold Orchestrator.pushBound
  cases endpoint with
  | none => rfl
  | some endpoint => simp [Finmap.lookup_erase_ne (Ne.symm (other rfl))]

end Waits
end PeerEntry

/-! ## Events -/

def Event.failuresAfter (id : String) (ip : IpAddr) (failures : Nat) : Event → Nat
  | .dialFailed peerId failed => if (peerId, failed) = (id, ip) then failures + 1 else failures
  | .connected peerId remoteAddr _ (some _) =>
      if (peerId, remoteAddr.ip) = (id, ip) then 0 else failures
  | _ => failures

/-- Time of the last failure after an event at `now`. -/
def Event.failedAtAfter (id : String) (ip : IpAddr) (now failedAt : Nat) : Event → Nat
  | .dialFailed peerId failed => if (peerId, failed) = (id, ip) then now else failedAt
  | _ => failedAt

/-- The event neither deletes the peer nor takes the address from it. -/
def Orchestrator.KeepsAddress (orch : Orchestrator) (id : String) (ip : IpAddr) : Event → Prop
  | .deleteConfig peerIds => id ∉ peerIds
  | .dns state => ∀ entry ∈ orch.peers.lookup id, ip ∈ (resolve state entry).resolvedIps
  | _ => True

instance (orch : Orchestrator) (id : String) (ip : IpAddr) : DecidablePred (orch.KeepsAddress id ip)
  | .deleteConfig peerIds => inferInstanceAs (Decidable (id ∉ peerIds))
  | .dns state =>
      inferInstanceAs
        (Decidable (∀ entry ∈ orch.peers.lookup id,
        ip ∈ (Orchestrator.resolve state entry).resolvedIps))
  | .stop | .actorExited _ | .postConfig _ | .connected .. | .dialFailed .. | .other =>
      .isTrue trivial

/-- What an event makes of an entry that waits; `left` counts the outstanding dials after it. -/
theorem PeerEntry.Waits.entryAfter {orch : Orchestrator} {env : Env} {id : String} {ip : IpAddr}
    {event : Event} {failures failedAt out left : Nat} {entry : PeerEntry}
    (known : orch.peers.lookup id = some entry)
    (waits : entry.Waits orch.backoff ip failures failedAt out)
    (keeps : orch.KeepsAddress id ip event)
    (balance : left + (if event.report = some (id, ip) then 1 else 0) =
      out + if ip ∈ Orchestrator.dialsAfter env event (orch.peers.lookup id) then 1 else 0) :
    ∃ next, Orchestrator.entryAfter env orch.backoff id event (orch.peers.lookup id) = some next ∧
      next.Waits orch.backoff ip (event.failuresAfter id ip failures)
        (event.failedAtAfter id ip env.now failedAt) left := by
  rw [known] at balance ⊢
  have quiet (silent : event.report = none)
      (still : Orchestrator.dialsAfter env event (some entry) = ∅) : left = out := by
    simpa [silent, still] using balance
  -- a report for the address is that of its one outstanding dial
  have reported (reports : event.report = some (id, ip)) : left = 0 ∧ out = 1 := by
    have single := waits.single
    rw [Orchestrator.dialsAfter_report reports, if_pos reports,
      if_neg (Finset.notMem_empty ip)] at balance
    omega
  have unreported (reports : event.report ≠ some (id, ip))
      (still : Orchestrator.dialsAfter env event (some entry) = ∅) : left = out := by
    simpa [reports, still] using balance
  cases event with
  | stop => exact ⟨entry, rfl, quiet rfl rfl ▸ waits⟩
  | other => exact ⟨entry, rfl, quiet rfl rfl ▸ waits⟩
  | actorExited policy =>
    cases policy with
    | critical => exact ⟨entry, rfl, quiet rfl rfl ▸ waits⟩
    | detached => exact ⟨entry, rfl, quiet rfl rfl ▸ waits⟩
    | restartable =>
      refine ⟨_, rfl, ?_⟩
      obtain rfl : left = out + _ := by simpa [Event.report] using balance
      exact (waits.prune env.isClosed).tryConnect env.now
  | dns state =>
    refine ⟨_, rfl, ?_⟩
    obtain rfl : left = out + _ := by simpa [Event.report] using balance
    have resolved : (Orchestrator.resolve state entry).Waits orch.backoff ip failures
        failedAt out :=
      waits.congr (fun _ => keeps entry known) rfl
    exact (resolved.prune env.isClosed).tryConnect env.now
  | postConfig peers =>
    obtain rfl := quiet rfl rfl
    simp only [Orchestrator.entryAfter]
    split
    next => exact ⟨_, rfl, waits.congr (fun member => member) rfl⟩
    next => exact ⟨_, rfl, waits⟩
  | deleteConfig peerIds =>
    obtain rfl := quiet rfl rfl
    exact ⟨entry, if_neg keeps, waits⟩
  | connected peerId remoteAddr tx endpoint =>
    simp only [Orchestrator.entryAfter]
    by_cases same : peerId = id
    · subst same
      refine ⟨_, by rw [if_pos rfl, Option.map_some], ?_⟩
      apply PeerEntry.Waits.prune
      cases endpoint with
      | none =>
        obtain rfl := quiet rfl rfl
        exact waits.pushOther (by simp) tx
      | some endpoint =>
        by_cases here : remoteAddr.ip = ip
        · obtain ⟨rfl, rfl⟩ := reported (by simp [Event.report, here])
          simpa [Event.failuresAfter, Event.failedAtAfter, here] using waits.pushDialed
            endpoint here tx
        · obtain rfl := unreported (by simp [Event.report, here]) rfl
          simpa [Event.failuresAfter, Event.failedAtAfter, here] using waits.pushOther
            (fun _ => here) tx
    · obtain rfl := unreported (by cases endpoint <;> simp [Event.report, same]) rfl
      refine ⟨entry, if_neg same, ?_⟩
      cases endpoint <;> simpa [Event.failuresAfter, Event.failedAtAfter, same] using waits
  | dialFailed peerId failed =>
    simp only [Orchestrator.entryAfter]
    by_cases same : peerId = id
    · subst same
      refine ⟨_, by rw [if_pos rfl, Option.map_some], ?_⟩
      by_cases here : failed = ip
      · subst here
        obtain ⟨rfl, rfl⟩ := reported rfl
        simpa [Event.failuresAfter, Event.failedAtAfter] using waits.failDial env.now
      · obtain rfl := unreported (by simp [Event.report, here]) rfl
        simpa [Event.failuresAfter, Event.failedAtAfter, here] using waits.failDial_other
          env.now here
    · obtain rfl := unreported (by simp [Event.report, same]) rfl
      exact ⟨entry,
        if_neg same, by simpa [Event.failuresAfter, Event.failedAtAfter, same] using waits⟩

/-- An event dials the address only when its backoff has elapsed. -/
theorem PeerEntry.Waits.elapsed_dialsAfter {orch : Orchestrator} {env : Env} {id : String}
    {ip : IpAddr} {event : Event} {failures failedAt out : Nat} {entry : PeerEntry}
    (known : orch.peers.lookup id = some entry)
    (waits : entry.Waits orch.backoff ip failures failedAt out)
    (keeps : orch.KeepsAddress id ip event)
    (dialed : ip ∈ Orchestrator.dialsAfter env event (orch.peers.lookup id))
    (failed : 0 < failures) : failedAt + orch.backoff.delay (failures - 1) ≤ env.now := by
  rw [known] at dialed
  cases event with
  | dns state =>
    have resolved : (Orchestrator.resolve state entry).Waits orch.backoff ip failures
        failedAt out :=
      waits.congr (fun _ => keeps entry known) rfl
    exact (resolved.prune env.isClosed).elapsed dialed failed
  | actorExited policy =>
    cases policy with
    | restartable => exact (waits.prune env.isClosed).elapsed dialed failed
    | critical => exact absurd dialed (Finset.notMem_empty ip)
    | detached => exact absurd dialed (Finset.notMem_empty ip)
  | stop | postConfig | deleteConfig | connected | dialFailed | other =>
    exact absurd dialed (Finset.notMem_empty ip)

/-! ## Runs -/

theorem System.tuned_of_reaches [PrefixTrie Trie] {tuning : DnsTuning} {orch : Orchestrator}
    {peers : List Peer} {sys : System Trie}
    (reached : Reaches (step tuning) (fun _ action => action.Honest) (new orch peers) sys) :
    (∀ envelope ∈ sys.inbox, envelope.Honest) ∧ sys.orch.backoff = orch.backoff := by
  induction reached with
  | refl => exact ⟨by simp [new], rfl⟩
  | next before honest taken tuned =>
    refine ⟨honest_step tuned.1 honest taken, ?_⟩
    rcases entry_step taken "" with ⟨event, env, _, reacts⟩ | ⟨_, same⟩
    · exact reacts.backoff.trans tuned.2
    · rw [same]
      exact tuned.2

structure Failures (Trie : Type → Type) where
  sys : System Trie
  count : Nat
  failedAt : Nat

namespace Failures

variable [PrefixTrie Trie]

def step (tuning : DnsTuning) (id : String) (ip : IpAddr) (action : Action) (seen : Failures Trie) :
    Option (Failures Trie) :=
  (seen.sys.step tuning action).map fun after =>
    match seen.sys.handled action with
    | some event =>
        ⟨after, event.failuresAfter id ip seen.count,
          event.failedAtAfter id ip after.clock seen.failedAt⟩
    | none => { seen with sys := after }

omit [PrefixTrie Trie] in
/-- The action leaves the peer and its address in place. -/
def Stays (id : String) (ip : IpAddr) (seen : Failures Trie) (action : Action) : Prop :=
  action.Honest ∧ ∀ event ∈ seen.sys.handled action, seen.sys.orch.KeepsAddress id ip event

instance : DecidablePred Action.Honest
  | .external event => inferInstanceAs (Decidable (event.report = none))
  | .handle .. | .reconcile .. | .dnsReceive _ | .dnsBranch .. | .routerReceive | .bareReceive
  | .h3Receive | .routeReceive
  | .dialConnected .. | .dialFailed _ | .dialAborted _ | .close _ => .isTrue trivial

omit [PrefixTrie Trie] in
instance (id : String) (ip : IpAddr) (seen : Failures Trie) (action : Action) :
    Decidable (seen.Stays id ip action) :=
  inferInstanceAs (Decidable (_ ∧ _))

omit [PrefixTrie Trie] in
/-- The peer is known, and its dial state agrees with the counted failures. -/
structure Counted (backoff : Backoff) (id : String) (ip : IpAddr)
    (seen : Failures Trie) : Prop where
  honest : ∀ envelope ∈ seen.sys.inbox, envelope.Honest
  keyed : PeersKeyed seen.sys.orch.peerConfigs
  tuned : seen.sys.orch.backoff = backoff
  waits : ∃ entry, seen.sys.orch.peers.lookup id = some entry ∧
    entry.Waits backoff ip seen.count seen.failedAt (seen.sys.outstanding id ip)

variable {tuning : DnsTuning} {backoff : Backoff} {id : String} {ip : IpAddr} {action : Action}
  {seen after : Failures Trie}

theorem Counted.step (counted : seen.Counted backoff id ip) (stays : seen.Stays id ip action)
    (keyed : PeersKeyed after.sys.orch.peerConfigs)
    (taken : seen.step tuning id ip action = some after) : after.Counted backoff id ip := by
  obtain ⟨sys, moved, rfl⟩ := Option.map_eq_some_iff.mp taken
  obtain ⟨entry, known, waits⟩ := counted.waits
  have honest := System.honest_step counted.honest stays.1 moved
  rcases System.peer_step counted.honest counted.keyed moved id with
    ⟨event, env, handled, reacts⟩ | ⟨handled, rests⟩
  · simp only [handled] at keyed ⊢
    refine ⟨honest, keyed, reacts.backoff.trans counted.tuned, ?_⟩
    have same := counted.tuned
    subst same
    rw [reacts.entry, reacts.clock]
    exact waits.entryAfter known (stays.2 event handled) (reacts.outstanding ip)
  · simp only [handled] at keyed ⊢
    refine ⟨honest, keyed, by rw [rests.orch]; exact counted.tuned,
      entry, by rw [rests.orch]; exact known, ?_⟩
    exact waits.fewer (rests.outstanding id ip)

theorem reaches_sys {start : Failures Trie}
    (reached : Reaches (Failures.step tuning id ip) (Stays id ip) start seen) :
    Reaches (System.step tuning) (fun _ action => action.Honest) start.sys seen.sys := by
  induction reached with
  | refl => exact .refl
  | @next middle after action before stays taken reached =>
    obtain ⟨sys, moved, rfl⟩ := Option.map_eq_some_iff.mp taken
    have next := reached.next stays.1 moved
    cases handled : middle.sys.handled action with
    | none => simpa [handled] using next
    | some event => simpa [handled] using next

theorem counted_of_reaches {orch : Orchestrator} {peers : List Peer} {sys : System Trie}
    (begun : Reaches (System.step tuning) (fun _ action => action.Honest)
      (System.new orch peers) sys)
    {entry : PeerEntry} (known : sys.orch.peers.lookup id = some entry)
    (unset : entry.dials.lookup ip = none) (idle : sys.outstanding id ip = 0)
    (reached : Reaches (Failures.step tuning id ip) (Stays id ip) ⟨sys, 0, sys.clock⟩ seen) :
    seen.Counted orch.backoff id ip := by
  have keyed {later : System Trie}
      (more : Reaches (System.step tuning) (fun _ action => action.Honest) sys later) :
      PeersKeyed later.orch.peerConfigs := System.peersKeyed_of_reaches
        ((begun.trans more).mono fun _ _ _ => trivial)
  induction reached with
  | refl =>
    obtain ⟨honest, tuned⟩ := System.tuned_of_reaches begun
    refine ⟨honest, keyed .refl, tuned, entry, known, ?_⟩
    rw [idle]
    refine ⟨.inl unset, Nat.zero_le 1, fun positive => absurd positive (Nat.lt_irrefl 0),
      fun _ => rfl, fun state stored => ?_⟩
    rw [unset] at stored
    cases stored
  | next before stays taken counted =>
    exact counted.step stays (keyed (reaches_sys (before.next stays taken))) taken

theorem Counted.started (counted : seen.Counted backoff id ip) (stays : seen.Stays id ip action)
    (taken : seen.step tuning id ip action = some after) (failed : 0 < seen.count)
    (starts : seen.sys.started id ip < after.sys.started id ip) :
    seen.failedAt + backoff.delay (seen.count - 1) ≤ after.sys.clock := by
  obtain ⟨sys, moved, rfl⟩ := Option.map_eq_some_iff.mp taken
  obtain ⟨entry, known, waits⟩ := counted.waits
  rcases System.peer_step counted.honest counted.keyed moved id with
    ⟨event, env, handled, reacts⟩ | ⟨handled, rests⟩
  · simp only [handled] at starts ⊢
    rw [reacts.started] at starts
    have dialed : ip ∈ Orchestrator.dialsAfter env event (seen.sys.orch.peers.lookup id) := by
      by_contra skipped
      rw [if_neg skipped] at starts
      exact Nat.lt_irrefl _ starts
    have same := counted.tuned
    subst same
    rw [reacts.clock]
    exact waits.elapsed_dialsAfter known (stays.2 event handled) dialed failed
  · simp only [handled, rests.started] at starts
    exact absurd starts (Nat.lt_irrefl _)

/-- After `k` failures in a row no dial of the address starts before the wait for `k` has
elapsed. The wait is what the code computes with its fixed widths; it never falls when `k` grows,
and stays within its bounds. A dialed connection starts the count over. -/
theorem backoff_kept (tuning : DnsTuning) (orch : Orchestrator) (peers : List Peer)
    (positive : 0 < orch.backoff.min) (ordered : orch.backoff.min ≤ orch.backoff.max)
    (bounded : orch.backoff.max ≤ durationMax) {id : String} {ip : IpAddr} {sys : System Trie}
    (begun : Reaches (System.step tuning) (fun _ action => action.Honest)
      (System.new orch peers) sys)
    {entry : PeerEntry} (known : sys.orch.peers.lookup id = some entry)
    (unset : entry.dials.lookup ip = none) (idle : sys.outstanding id ip = 0)
    {seen : Failures Trie}
    (reached : Reaches (Failures.step tuning id ip) (Stays id ip) ⟨sys, 0, sys.clock⟩ seen) :
    (∀ action after, seen.Stays id ip action → seen.step tuning id ip action = some after →
      seen.sys.started id ip < after.sys.started id ip → 0 < seen.count →
      seen.failedAt + orch.backoff.wait seen.count ≤ after.sys.clock) ∧
    (∃ later, seen.sys.orch.peers.lookup id = some later ∧
      (later.dials.lookup ip = none → seen.count = 0) ∧
      ∀ state, later.dials.lookup ip = some state → state.attempt = Min.min seen.count u32Max ∧
        (0 < seen.count → state.nextAllowedAt = seen.failedAt + orch.backoff.wait seen.count)) ∧
    (∀ k, orch.backoff.wait k ≤ orch.backoff.wait (k + 1)) ∧
    (∀ k, 0 < orch.backoff.wait k ∧ orch.backoff.min ≤ orch.backoff.wait k ∧
      orch.backoff.wait k ≤ orch.backoff.max) ∧
    ∀ k, ∃ multiplier, Backoff.checkedShl (Min.min (Min.min k u32Max) 30) = some multiplier ∧
      multiplier ≤ u32Max ∧
      Min.min orch.backoff.max (Min.min (orch.backoff.min * multiplier) durationMax) =
        orch.backoff.wait (k + 1) := by
  have counted := counted_of_reaches begun known unset idle reached
  have waited {k : Nat} (failed : 0 < k) : orch.backoff.delay (k - 1) = orch.backoff.wait k := by
    rw [Backoff.delay_eq_wait bounded, Nat.sub_add_cancel failed]
  refine ⟨fun action after stays taken starts failed => ?_, ?_,
    fun k => Backoff.wait_mono (Nat.le_succ k), fun k => ?_,
    fun k => ?_⟩
  · rw [← waited failed]
    exact counted.started stays taken failed starts
  · obtain ⟨later, found, waits⟩ := counted.waits
    refine ⟨later, found, waits.absent, fun state stored =>
      ⟨(waits.counted state stored).1, fun failed => ?_⟩⟩
    rw [← waited failed]
    exact (waits.counted state stored).2 failed
  · have least := Backoff.min_le_wait ordered k
    exact ⟨Nat.lt_of_lt_of_le positive least, least, Backoff.wait_le_max k⟩
  · refine ⟨_, Backoff.checkedShl_attempt (Min.min k u32Max), ?_, ?_⟩
    -- The shift is at most 30, so that its result fits into 32 bits.
    · have power : 2 ^ Min.min (Min.min k u32Max) 30 ≤ 2 ^ 30 :=
        Nat.pow_le_pow_right (by decide) (Nat.min_le_right _ _)
      exact Nat.le_trans power (by decide)
    · rw [← Backoff.delay_eq_wait bounded, ← Backoff.delay_saturated]
      rfl

open H3llo.Orch.System (sampleTuning sampleOrch fixedRelay fixedRelayIp)

/-- Two dials fail; a reconcile within the second wait starts none. -/
def failTwice : List Action :=
  let task : DialTask := ⟨⟨"relay", fixedRelayIp, fixedRelay.transport⟩, 0⟩
  [.dnsReceive 1, .handle 2 [fixedRelay], .dialFailed task, .handle 3 [fixedRelay],
    .reconcile (3 + nanosPerSec) [fixedRelay], .dialFailed { task with generation := 1 },
      .handle (4 + nanosPerSec) [fixedRelay],
    .reconcile (3 + 3 * nanosPerSec) [fixedRelay]]

theorem backoff_kept_third_dial : ∃ seen after : Failures AssocTrie,
    seen.count = 2 ∧ seen.step sampleTuning "relay" fixedRelayIp
      (.reconcile (4 + 3 * nanosPerSec) [fixedRelay]) = some after ∧
      seen.sys.started "relay" fixedRelayIp < after.sys.started "relay" fixedRelayIp ∧
      seen.failedAt + sampleOrch.backoff.wait seen.count ≤ after.sys.clock := by
  have starts : ((System.new sampleOrch [fixedRelay] : System AssocTrie).orch.peers.lookup
      "relay").any fun entry =>
      decide (entry.dials.lookup fixedRelayIp = none) := by decide +kernel
  have executes :
      ((run (guarded (Failures.step sampleTuning "relay" fixedRelayIp) (Stays "relay" fixedRelayIp))
        failTwice
      (⟨System.new sampleOrch [fixedRelay], 0, 0⟩ : Failures AssocTrie)).any fun seen =>
        (seen.step sampleTuning "relay" fixedRelayIp
          (.reconcile (4 + 3 * nanosPerSec) [fixedRelay])).any fun after =>
          decide (seen.count = 2 ∧ seen.sys.started "relay" fixedRelayIp <
            after.sys.started "relay" fixedRelayIp)) = true := by
    decide +kernel
  obtain ⟨entry, known, unset⟩ := (Option.any_eq_true ..).mp starts
  obtain ⟨seen, executed, further⟩ := (Option.any_eq_true ..).mp executes
  obtain ⟨after, taken, facts⟩ := (Option.any_eq_true ..).mp further
  obtain ⟨count, dialed⟩ := of_decide_eq_true facts
  have kept :=
    (backoff_kept sampleTuning sampleOrch [fixedRelay] (by decide) (by decide)
      (by decide) .refl known
    (of_decide_eq_true unset) (by decide +kernel) (reaches_of_guarded_run executed)).1
  have stays : seen.Stays "relay" fixedRelayIp (.reconcile (4 + 3 * nanosPerSec) [fixedRelay]) := by
    refine ⟨trivial, fun event handled => ?_⟩
    cases handled
    trivial
  exact ⟨seen, after, count, taken, dialed, kept _ after stays taken dialed
    (by rw [count]; exact Nat.two_pos)⟩

end Failures

end H3llo.Orch
