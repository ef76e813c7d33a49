import H3llo.Orch.Orchestrator

/-! Dial states track outstanding dials.

The orchestrator does not count its dials: it relies on the in-flight mark of a dial
state. Given the number of outstanding dials for each peer and address, every handler
keeps it at one with the open bounds, as long as no event takes the peer or the address
of an outstanding dial away.
-/

set_option autoImplicit false

namespace H3llo.Orch
open H3llo.Net H3llo.Config H3llo.Dns H3llo.Router

variable {isClosed : Sender → Bool} {ip : IpAddr}

def Event.report : Event → Option (String × IpAddr)
  | .dialFailed peerId ip => some (peerId, ip)
  | .connected peerId remoteAddr _ (some _) => some (peerId, remoteAddr.ip)
  | _ => none

/-! ## One peer -/

namespace PeerEntry

def openBounds (isClosed : Sender → Bool) (ip : IpAddr) (entry : PeerEntry) : Nat :=
  entry.bounds.countP fun bound => bound.endpoint.isSome && decide (bound.dest.ip = ip) &&
    !isClosed bound.tx

structure Tracks (entry : PeerEntry) (ip : IpAddr) : Prop where
  resolved : ip ∈ entry.resolvedIps
  inFlight : ∃ state, entry.dials.lookup ip = some state ∧ state.inFlight = true

theorem openBounds_prune (entry : PeerEntry) :
    (entry.prune isClosed).1.openBounds isClosed ip ≤ entry.openBounds isClosed ip :=
  List.filter_sublist.countP_le

theorem openBounds_tryConnect (now : Nat) (entry : PeerEntry) :
    (entry.tryConnect now).1.openBounds isClosed ip = entry.openBounds isClosed ip := by
  rw [openBounds, tryConnect_bounds, openBounds]

theorem Tracks.prune {entry : PeerEntry} (tracks : entry.Tracks ip) :
    (entry.prune isClosed).1.Tracks ip where
  resolved := tracks.resolved
  inFlight := by
    obtain ⟨state, found, running⟩ := tracks.inFlight
    exact ⟨state, by simp [found, tracks.resolved], running⟩

theorem Tracks.not_uncovered {entry : PeerEntry} (tracks : entry.Tracks ip) (now : Nat) :
    ip ∉ entry.uncovered now := by
  intro dialed
  obtain ⟨state, found, running⟩ := tracks.inFlight
  rw [uncovered_idle dialed found] at running
  cases running

theorem Tracks.tryConnect {entry : PeerEntry} (tracks : entry.Tracks ip) (now : Nat) :
    (entry.tryConnect now).1.Tracks ip where
  resolved := tracks.resolved
  inFlight := by
    rw [tryConnect_dials, if_neg (tracks.not_uncovered now)]
    exact tracks.inFlight

theorem tracks_of_uncovered {now : Nat} {entry : PeerEntry} (dialed : ip ∈ entry.uncovered now) :
    (entry.tryConnect now).1.Tracks ip where
  resolved := by
    rw [tryConnect_resolvedIps]
    exact uncovered_resolved dialed
  inFlight := ⟨entry.dialed now ip, by simp [dialed], dialed_inFlight now entry ip⟩

theorem openBounds_of_uncovered {now : Nat} {entry : PeerEntry}
    (dialed : ip ∈ entry.uncovered now) : entry.openBounds isClosed ip = 0 := by
  rw [openBounds, List.countP_eq_zero]
  intro bound member
  simp [uncovered_free dialed bound member]

theorem countP_tryConnect (now : Nat) (entry : PeerEntry) (ip : IpAddr) :
    (entry.tryConnect now).2.countP (Dial.IsFor entry.config.id ip) =
      if ip ∈ entry.uncovered now then 1 else 0 := by
  have select : ∀ other ∈ (entry.uncovered now).val,
      Dial.IsFor entry.config.id ip ⟨entry.config.id, other, entry.config.transport⟩ ↔
        ip = other := by
    intro other _
    simp [Dial.IsFor, eq_comm]
  rw [tryConnect, Multiset.countP_map, Multiset.filter_congr select,
    ← Multiset.count_eq_card_filter_eq,
    Multiset.count_eq_of_nodup (entry.uncovered now).nodup]
  rfl

/-- With `out` outstanding dials for each address of a peer. -/
structure SingleFlight (isClosed : Sender → Bool) (id : String) (out : IpAddr → Nat)
    (entry : PeerEntry) : Prop where
  keyed : entry.config.id = id
  single : ∀ ip, out ip + entry.openBounds isClosed ip ≤ 1
  tracked : ∀ ip, 0 < out ip → entry.Tracks ip

namespace SingleFlight

variable {id : String} {out : IpAddr → Nat} {entry : PeerEntry}

theorem new (config : Peer) :
    (PeerEntry.new config).SingleFlight isClosed config.id fun _ => 0 where
  keyed := rfl
  single ip := by simp [openBounds, PeerEntry.new]
  tracked ip positive := absurd positive (Nat.lt_irrefl 0)

theorem fewer (flight : entry.SingleFlight isClosed id out) {fewer : IpAddr → Nat}
    (le : ∀ ip, fewer ip ≤ out ip) : entry.SingleFlight isClosed id fewer where
  keyed := flight.keyed
  single ip := Nat.le_trans (Nat.add_le_add_right (le ip) _) (flight.single ip)
  tracked ip positive := flight.tracked ip (Nat.lt_of_lt_of_le positive (le ip))

theorem prune (flight : entry.SingleFlight isClosed id out) :
    (entry.prune isClosed).1.SingleFlight isClosed id out where
  keyed := flight.keyed
  single ip := Nat.le_trans (Nat.add_le_add_left entry.openBounds_prune _) (flight.single ip)
  tracked ip positive := (flight.tracked ip positive).prune

theorem reconfigure (flight : entry.SingleFlight isClosed id out) {config : Peer}
    (same : config.id = id) : ({ entry with config } : PeerEntry).SingleFlight isClosed id out where
  keyed := same
  single := flight.single
  tracked ip positive := ⟨(flight.tracked ip positive).resolved,
    (flight.tracked ip positive).inFlight⟩

theorem resolve (flight : entry.SingleFlight isClosed id out) {resolvedIps : Finset IpAddr}
    (keeps : ∀ ip, 0 < out ip → ip ∈ resolvedIps) :
    ({ entry with resolvedIps } : PeerEntry).SingleFlight isClosed id out where
  keyed := flight.keyed
  single := flight.single
  tracked ip positive := ⟨keeps ip positive, (flight.tracked ip positive).inFlight⟩

theorem tryConnect (flight : entry.SingleFlight isClosed id out) (now : Nat) :
    (entry.tryConnect now).1.SingleFlight isClosed id fun ip =>
      out ip + (entry.tryConnect now).2.countP (Dial.IsFor id ip) := by
  obtain ⟨rfl, single, tracked⟩ := flight
  refine ⟨rfl, fun ip => ?_, fun ip positive => ?_⟩
  · rw [countP_tryConnect, openBounds_tryConnect]
    split
    next dialed =>
      -- a dialed address has neither a bound nor an outstanding dial
      have free : entry.openBounds isClosed ip = 0 := openBounds_of_uncovered dialed
      have idle : ¬ 0 < out ip := fun positive => (tracked ip positive).not_uncovered now dialed
      omega
    next => exact single ip
  · rw [countP_tryConnect] at positive
    split at positive
    next dialed => exact tracks_of_uncovered dialed
    next => exact (tracked ip positive).tryConnect now

theorem pushInbound (flight : entry.SingleFlight isClosed id out) (dest : SocketAddr)
    (tx : Sender) : (Orchestrator.pushBound none dest tx entry).SingleFlight isClosed id out where
  keyed := flight.keyed
  single ip := by simpa [openBounds, Orchestrator.pushBound] using flight.single ip
  tracked ip positive := ⟨(flight.tracked ip positive).resolved,
    (flight.tracked ip positive).inFlight⟩

theorem pushOutbound (flight : entry.SingleFlight isClosed id out) (endpoint : Endpoint)
    {dest : SocketAddr} (tx : Sender) (done : out dest.ip = 0)
    (free : entry.openBounds isClosed dest.ip = 0) :
    (Orchestrator.pushBound (some endpoint) dest tx entry).SingleFlight isClosed id out where
  keyed := flight.keyed
  single ip := by
    have before := flight.single ip
    by_cases same : dest.ip = ip
    · subst same
      simp only [openBounds, Orchestrator.pushBound, List.countP_append, done] at free ⊢
      rw [free, Nat.zero_add, Nat.zero_add]
      exact List.countP_le_length
    · simpa [openBounds, Orchestrator.pushBound, same] using before
  tracked ip positive := by
    have tracks := flight.tracked ip positive
    have other : ip ≠ dest.ip := by
      rintro rfl
      omega
    refine ⟨tracks.resolved, ?_⟩
    obtain ⟨state, found, running⟩ := tracks.inFlight
    exact ⟨state, by simp [Orchestrator.pushBound, other, found], running⟩

theorem failDial (flight : entry.SingleFlight isClosed id out) (backoff : Backoff) (now : Nat)
    {ip : IpAddr} (done : out ip = 0) :
    (Orchestrator.failDial backoff now ip entry).SingleFlight isClosed id out := by
  unfold Orchestrator.failDial
  split
  next => exact flight
  next state found =>
    refine ⟨flight.keyed, flight.single, fun other positive => ?_⟩
    have tracks := flight.tracked other positive
    have different : other ≠ ip := by
      rintro rfl
      omega
    refine ⟨tracks.resolved, ?_⟩
    rw [Finmap.lookup_insert_of_ne _ different]
    exact tracks.inFlight

end SingleFlight
end PeerEntry

/-! ## All peers -/

namespace Orchestrator

/-- With `out` outstanding dials for each peer and address. -/
structure SingleFlight (isClosed : Sender → Bool) (out : String → IpAddr → Nat)
    (orch : Orchestrator) : Prop where
  known : ∀ id ip, 0 < out id ip → (orch.peers.lookup id).isSome
  each : ∀ id entry, orch.peers.lookup id = some entry → entry.SingleFlight isClosed id (out id)

/-- An event that takes no outstanding dial's peer or address away. -/
def KeepsDials (out : String → IpAddr → Nat) (orch : Orchestrator) : Event → Prop
  | .deleteConfig peerIds => ∀ id ∈ peerIds, ∀ ip, out id ip = 0
  | .dns state =>
      ∀ id entry ip, orch.peers.lookup id = some entry → 0 < out id ip →
        ip ∈ (resolve state entry).resolvedIps
  | _ => True

theorem KeepsDials.fewer {out fewer : String → IpAddr → Nat} {orch : Orchestrator} {event : Event}
    (keeps : orch.KeepsDials out event) (le : ∀ id ip, fewer id ip ≤ out id ip) :
    orch.KeepsDials fewer event := by
  cases event with
  | deleteConfig peerIds => exact fun id erased ip => Nat.le_zero.mp (keeps id erased ip ▸ le id ip)
  | dns state =>
    exact fun id entry ip found positive => keeps id entry ip found
      (Nat.lt_of_lt_of_le positive (le id ip))
  | _ => trivial

namespace SingleFlight

variable {out : String → IpAddr → Nat} {orch : Orchestrator}

theorem fewer (flight : orch.SingleFlight isClosed out) {fewer : String → IpAddr → Nat}
    (le : ∀ id ip, fewer id ip ≤ out id ip) : orch.SingleFlight isClosed fewer where
  known id ip positive := flight.known id ip (Nat.lt_of_lt_of_le positive (le id ip))
  each id entry found := (flight.each id entry found).fewer (le id)

theorem map (flight : orch.SingleFlight isClosed out) {next : Orchestrator}
    {change : String → PeerEntry → PeerEntry}
    (peers : ∀ id, next.peers.lookup id = (orch.peers.lookup id).map (change id))
    (keeps : ∀ id entry, orch.peers.lookup id = some entry →
      (change id entry).SingleFlight isClosed id (out id)) :
    next.SingleFlight isClosed out where
  known id ip positive := by
    rw [peers, Option.isSome_map]
    exact flight.known id ip positive
  each id entry found := by
    rw [peers, Option.map_eq_some_iff] at found
    obtain ⟨old, before, rfl⟩ := found
    exact keeps id old before

theorem maintainAll {env : Env} (flight : orch.SingleFlight env.isClosed out)
    (resolution : PeerEntry → Finset IpAddr)
    (keeps : ∀ id entry ip, orch.peers.lookup id = some entry → 0 < out id ip →
      ip ∈ resolution entry) :
    let result := orch.maintainAll env fun entry => { entry with resolvedIps := resolution entry }
    result.1.SingleFlight env.isClosed fun id ip => out id ip + result.2.countP
      (Dial.IsFor id ip) := by
  intro result
  have each (id : String) (entry : PeerEntry) (found : orch.peers.lookup id = some entry) :=
    ((flight.each id entry found).resolve fun ip => keeps id entry ip found).prune.tryConnect
      env.now
  have dials (id : String) (ip : IpAddr) : result.2.countP (Dial.IsFor id ip) =
      ((orch.peers.lookup id).map fun entry =>
        (PeerEntry.maintain env.isClosed env.now
          { entry with resolvedIps := resolution entry }).2.countP
          (Dial.IsFor id ip)).getD 0 := by
    -- a dial bears the id of its own entry, so only one entry counts
    apply HashMap.countP_bind_values
    intro key entry stored other dial member isFor
    apply other
    rw [← isFor.1, (PeerEntry.mem_tryConnect.mp member).1]
    exact (flight.each key entry stored).keyed.symm
  refine ⟨fun id ip positive => ?_, fun id entry found => ?_⟩
  · simp only [result, Orchestrator.maintainAll, HashMap.lookup_map, Option.isSome_map]
    cases present : orch.peers.lookup id with
    | some entry => rfl
    | none =>
      rw [dials, present, Option.map_none, Option.getD_none, Nat.add_zero] at positive
      have known := flight.known id ip positive
      rw [present] at known
      exact known
  · simp only [result, Orchestrator.maintainAll, HashMap.lookup_map,
      Option.map_eq_some_iff] at found
    obtain ⟨old, before, rfl⟩ := found
    simp only [dials, before, Option.map_some, Option.getD_some]
    exact each id old before

theorem upsertPeer (flight : orch.SingleFlight isClosed out) (peer : Peer) :
    ({ orch with peers := Orchestrator.upsertPeer orch.peers peer } : Orchestrator).SingleFlight
      isClosed out where
  known id ip positive := by
    simp only [lookup_upsertPeer]
    split
    · rfl
    · exact flight.known id ip positive
  each id entry found := by
    simp only [lookup_upsertPeer] at found
    split at found
    next same =>
      subst same
      cases present : orch.peers.lookup peer.id with
      | some existing =>
        simp only [present, Option.map_some, Option.getD_some, Option.some.injEq] at found
        subst found
        exact (flight.each peer.id existing present).reconfigure rfl
      | none =>
        simp only [present, Option.map_none, Option.getD_none, Option.some.injEq] at found
        subst found
        -- outstanding dials are those of known peers, so a new peer has none
        apply (PeerEntry.SingleFlight.new peer).fewer
        intro ip
        by_contra positive
        have known := flight.known peer.id ip (by omega)
        rw [present] at known
        cases known
    next => exact flight.each id entry found

theorem upsertPeers (flight : orch.SingleFlight isClosed out) (peers : List Peer) :
    ({ orch with peers := peers.foldl Orchestrator.upsertPeer orch.peers } :
      Orchestrator).SingleFlight isClosed out := by
  induction peers generalizing orch with
  | nil => exact flight
  | cons peer rest ih => exact ih (flight.upsertPeer peer)

theorem eraseAll (flight : orch.SingleFlight isClosed out) {peerIds : List String}
    (done : ∀ id ∈ peerIds, ∀ ip, out id ip = 0) :
    ({ orch with peers := peerIds.foldl (fun peers id => peers.erase id) orch.peers } :
      Orchestrator).SingleFlight
      isClosed out where
  known id ip positive := by
    simp only [lookup_eraseAll]
    split
    next erased => exact absurd (done id erased ip) (by omega)
    next => exact flight.known id ip positive
  each id entry found := by
    simp only [lookup_eraseAll] at found
    split at found
    · cases found
    · exact flight.each id entry found

section Handlers

variable {Trie : Type → Type} [PrefixTrie Trie] {env : Env}

variable (env) in
theorem reconcile (flight : orch.SingleFlight env.isClosed out) :
    let reaction : Reaction Trie := orch.reconcile env
    reaction.orch.SingleFlight env.isClosed fun id ip =>
      out id ip + reaction.dials.countP (Dial.IsFor id ip) :=
  flight.maintainAll PeerEntry.resolvedIps fun id entry ip found positive =>
    ((flight.each id entry found).tracked ip positive).resolved

theorem updateBound (flight : orch.SingleFlight env.isClosed out) (peerId : String)
    (endpoint : Option Endpoint) (dest : SocketAddr) (tx : Sender)
    (done : endpoint.isSome → out peerId dest.ip = 0 ∧ ∀ entry,
      orch.peers.lookup peerId = some entry → entry.openBounds env.isClosed dest.ip = 0) :
    (orch.updateBound env peerId endpoint dest tx : Reaction Trie).orch.SingleFlight
      env.isClosed out := by
  apply flight.map (lookup_updateBound env peerId endpoint dest tx orch)
  intro id entry found
  have each := flight.each id entry found
  split
  next same =>
    subst same
    cases endpoint with
    | none => exact (each.pushInbound dest tx).prune
    | some endpoint =>
      exact (each.pushOutbound endpoint tx (done rfl).1 ((done rfl).2 entry found)).prune
  next => exact each

omit [PrefixTrie Trie] in
theorem handleDialFailed (flight : orch.SingleFlight env.isClosed out) {peerId : String}
    {ip : IpAddr} (done : out peerId ip = 0) :
    (orch.handleDialFailed env peerId ip : Reaction Trie).orch.SingleFlight env.isClosed out := by
  apply flight.map (lookup_handleDialFailed env peerId ip orch)
  intro id entry found
  have each := flight.each id entry found
  split
  next same =>
    subst same
    exact each.failDial orch.backoff env.now done
  next => exact each

omit [PrefixTrie Trie] in
theorem quiet {reaction : Reaction Trie} (flight : reaction.orch.SingleFlight isClosed out)
    (none : reaction.dials = 0) :
    reaction.orch.SingleFlight isClosed fun id ip =>
      out id ip + reaction.dials.countP (Dial.IsFor id ip) :=
  flight.fewer fun id ip => by simp [none]

/-- `out` no longer counts the dial that the event reports, if it reports one. -/
theorem handleEvent {event : Event} {reaction : Reaction Trie}
    (flight : orch.SingleFlight env.isClosed out) (keeps : orch.KeepsDials out event)
    (done : ∀ id ip, event.report = some (id, ip) → out id ip = 0 ∧ ∀ entry,
      orch.peers.lookup id = some entry → entry.openBounds env.isClosed ip = 0)
    (reacts : orch.handleEvent env event = some reaction) :
    reaction.orch.SingleFlight env.isClosed fun id ip =>
      out id ip + reaction.dials.countP (Dial.IsFor id ip) := by
  cases reacts_of_handleEvent reacts with
  | exited => exact flight.quiet rfl
  | reconciled => exact flight.reconcile env
  | resolved state => exact flight.maintainAll _ keeps
  | rejected peers => exact flight.quiet rfl
  | posted peers accepted updated =>
    subst updated
    exact (flight.upsertPeers peers).quiet rfl
  | deleted peerIds => exact (flight.eraseAll keeps).quiet rfl
  | connected peerId remoteAddr tx endpoint =>
    apply (flight.updateBound peerId endpoint remoteAddr tx _).quiet
      (dials_updateBound env peerId endpoint remoteAddr tx orch)
    intro dialed
    cases endpoint with
    | none => cases dialed
    | some endpoint => exact done peerId remoteAddr.ip rfl
  | failed peerId ip =>
    exact (flight.handleDialFailed (done peerId ip rfl).1).quiet
      (dials_handleDialFailed env peerId ip orch)
  | ignored => exact flight.quiet rfl

end Handlers
end SingleFlight
end Orchestrator

end H3llo.Orch
