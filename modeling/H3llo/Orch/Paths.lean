import H3llo.Orch.PeerView

/-! Path selection.

A peer prefers its oldest bound. Bounds keep the order in which they were registered and
leave only when a prune finds them stale, so that a healthy path is never given up.
-/

set_option autoImplicit false

namespace H3llo.Orch
open H3llo.Net H3llo.Config H3llo.Dns H3llo.Router H3llo.Runs

variable {Trie : Type → Type}

/-! ## One prune -/

namespace PeerEntry

/-- The channel is closed, or the bound was dialed for an endpoint or an address that the peer no
longer has. -/
def Stale (isClosed : Sender → Bool) (entry : PeerEntry) (bound : ActiveConn) : Prop :=
  isClosed bound.tx = true ∨
    ∃ endpoint, bound.endpoint = some endpoint ∧
      (entry.configEndpoint ≠ some endpoint ∨ bound.dest.ip ∉ entry.resolvedIps)

variable {isClosed later : Sender → Bool} {entry next : PeerEntry} {bound : ActiveConn}

theorem keeps_iff : entry.keeps isClosed bound = true ↔ ¬ entry.Stale isClosed bound := by
  unfold keeps Stale
  cases bound.endpoint with
  | none => simp
  | some endpoint => simp

theorem Stale.mono (closes : ∀ tx, later tx = true → isClosed tx = true)
    (stale : entry.Stale later bound) :
    entry.Stale isClosed bound := stale.imp_left (closes bound.tx)

theorem prune_flag :
    (entry.prune isClosed).2 = true ↔ (entry.prune isClosed).1.preferredTx ≠ entry.preferredTx := by
  unfold preferredTx
  rw [prune_bounds]
  simp only [prune]
  cases entry.bounds.head? with
  | none => cases (entry.bounds.filter (entry.keeps isClosed)).head? <;> simp
  | some old =>
    cases (entry.bounds.filter (entry.keeps isClosed)).head? with
    | none => simp
    | some new =>
      simp only [decide_eq_true_eq, Option.map_some, ne_eq, Option.some.injEq]
      exact ne_comm

theorem prune_prune (closes : ∀ tx, later tx = true → isClosed tx = true) :
    (entry.prune isClosed).1.prune later = ((entry.prune isClosed).1, false) := by
  have bounds : (entry.prune isClosed).1.bounds.filter ((entry.prune isClosed).1.keeps later) =
      (entry.prune isClosed).1.bounds := by
    rw [List.filter_eq_self, prune_bounds]
    intro bound member
    have kept := keeps_iff.mp (List.mem_filter.mp member).2
    exact keeps_iff.mpr fun stale => kept (stale.mono closes)
  have dials : (entry.prune isClosed).1.dials.retain
      (fun ip _ => decide (ip ∈ (entry.prune isClosed).1.resolvedIps)) =
      (entry.prune isClosed).1.dials := by
    apply Finmap.ext_lookup
    intro ip
    rw [HashMap.lookup_retain, prune_dials, prune_resolvedIps, Option.filter_filter]
    simp
  have same : ((entry.prune isClosed).1.prune later).1 = (entry.prune isClosed).1 := by
    rw [prune, bounds, dials]
  refine Prod.ext same ?_
  rw [← Bool.not_eq_true, prune_flag, same]
  simp

theorem prune_resolved {ip : IpAddr} {state : DialState}
    (found : (entry.prune isClosed).1.dials.lookup ip = some state) : ip ∈ entry.resolvedIps := by
  rw [prune_dials, Option.filter_eq_some_iff] at found
  exact of_decide_eq_true found.2

end PeerEntry

/-! ## One event -/

namespace Event

def registers (id : String) : Event → List ActiveConn
  | .connected peerId remoteAddr tx endpoint =>
      if peerId = id then [⟨endpoint, remoteAddr, tx, ()⟩] else []
  | _ => []

/-- The orchestrator prunes the peer when it handles the event. -/
def Prunes (id : String) : Event → Prop
  | .dns _ => True
  | .actorExited .restartable => True
  | .connected peerId .. => peerId = id
  | _ => False

/-- The bounds registered for an entry of a peer since it was created. -/
def registeredAfter (id : String) (known : Bool) (registered : List ActiveConn) :
    Event → List ActiveConn
  | .deleteConfig peerIds => if id ∈ peerIds then [] else registered
  | event => if known then registered ++ event.registers id else registered

def channel : Event → Option Sender
  | .connected _ _ tx _ => some tx
  | _ => none

theorem mem_channels_of_channel {event : Event} {tx : Sender} (member : tx ∈ event.channel.toList) :
    tx ∈ event.channels := by
  cases event with
  | connected peerId remoteAddr channel endpoint =>
    exact Finset.mem_singleton.mpr (List.mem_singleton.mp member)
  | stop | actorExited | dns | postConfig | deleteConfig | dialFailed | other => cases member

theorem registers_channel (id : String) (event : Event) :
    ((event.registers id).map ActiveConn.tx).Sublist event.channel.toList := by
  cases event with
  | connected peerId remoteAddr tx endpoint =>
    by_cases same : peerId = id <;> simp [registers, channel, same]
  | stop | actorExited | dns | postConfig | deleteConfig | dialFailed | other =>
    exact List.Sublist.refl _

theorem registeredAfter_channel (id : String) (known : Bool) (registered : List ActiveConn)
    (event : Event) :
    ((event.registeredAfter id known registered).map ActiveConn.tx).Sublist
      (registered.map ActiveConn.tx ++ event.channel.toList) := by
  have added : ((if known then registered ++ event.registers id else registered).map
      ActiveConn.tx).Sublist
      (registered.map ActiveConn.tx ++ event.channel.toList) := by
    split
    · rw [List.map_append]
      exact (List.Sublist.refl _).append (event.registers_channel id)
    · exact List.sublist_append_left _ _
  cases event with
  | deleteConfig peerIds =>
    simp only [registeredAfter]
    split
    · exact List.nil_sublist _
    · exact List.sublist_append_left _ _
  | stop | actorExited | dns | postConfig | connected | dialFailed | other => exact added

end Event

namespace Orchestrator

variable {env : Env} {backoff : Backoff} {id : String} {event : Event} {entry next : PeerEntry}

theorem bounds_entryAfter (found : entryAfter env backoff id event (some entry) = some next) :
    (event.Prunes id → next.bounds = (entry.bounds ++ event.registers id).filter
      (next.keeps env.isClosed)) ∧
      (¬ event.Prunes id → event.registers id = [] ∧ next.bounds = entry.bounds) := by
  cases event with
  | dns state =>
    cases found
    exact ⟨fun _ => by simp only [Event.registers, List.append_nil]; rfl,
      fun kept => absurd trivial kept⟩
  | actorExited policy =>
    cases policy with
    | restartable =>
      cases found
      exact ⟨fun _ => by simp only [Event.registers, List.append_nil]; rfl,
        fun kept => absurd trivial kept⟩
    | critical | detached =>
      cases found
      exact ⟨False.elim, fun _ => ⟨rfl, rfl⟩⟩
  -- A changed configuration takes effect at the next prune.
  | postConfig peers =>
    refine ⟨False.elim, fun _ => ⟨rfl, ?_⟩⟩
    simp only [entryAfter] at found
    split at found
    next =>
      cases found
      rfl
    next =>
      cases found
      rfl
  | deleteConfig peerIds =>
    obtain ⟨_, same⟩ := Option.ite_none_left_eq_some.mp found
    cases same
    exact ⟨False.elim, fun _ => ⟨rfl, rfl⟩⟩
  | connected peerId remoteAddr tx endpoint =>
    by_cases same : peerId = id
    -- The new bound is registered before the prune, so that it may go at once.
    · rw [entryAfter, if_pos same] at found
      cases found
      refine ⟨fun _ => ?_, fun kept => absurd same kept⟩
      rw [Event.registers, if_pos same]
      rfl
    · rw [entryAfter, if_neg same] at found
      cases found
      exact ⟨fun pruned => absurd pruned same, fun _ => ⟨if_neg same, rfl⟩⟩
  | dialFailed peerId ip =>
    refine ⟨False.elim, fun _ => ⟨rfl, ?_⟩⟩
    simp only [entryAfter] at found
    split at found
    next =>
      cases found
      unfold failDial
      split <;> rfl
    next =>
      cases found
      rfl
  | stop | other =>
    cases found
    exact ⟨False.elim, fun _ => ⟨rfl, rfl⟩⟩

theorem registeredAfter_entryAfter
    (found : entryAfter env backoff id event (some entry) = some next)
    (registered : List ActiveConn) :
    event.registeredAfter id true registered = registered ++ event.registers id := by
  cases event with
  | deleteConfig peerIds =>
    obtain ⟨kept, _⟩ := Option.ite_none_left_eq_some.mp found
    simp [Event.registeredAfter, Event.registers, kept]
  | stop | actorExited | dns | postConfig | connected | dialFailed | other => rfl

/-- Only a configuration creates an entry, and no bound comes with it. -/
theorem created_entryAfter (found : entryAfter env backoff id event none = some next)
    (registered : List ActiveConn) :
    next.bounds = [] ∧ event.registeredAfter id false registered = registered := by
  cases event with
  | postConfig peers =>
    refine ⟨?_, rfl⟩
    simp only [entryAfter] at found
    split at found
    next =>
      cases found
      rfl
    next => cases found
  | actorExited policy => cases policy <;> cases found
  | deleteConfig peerIds => simp [entryAfter] at found
  | connected peerId remoteAddr tx endpoint => simp [entryAfter] at found
  | dialFailed peerId ip => simp [entryAfter] at found
  | stop | dns | other => cases found

theorem deleted_entryAfter {before : Option PeerEntry} {registered : List ActiveConn}
    (empty : before = none → registered = [])
    (gone : entryAfter env backoff id event before = none) :
    event.registeredAfter id before.isSome registered = [] := by
  cases before with
  | none =>
    rw [empty rfl]
    cases event with
    | deleteConfig peerIds => simp [Event.registeredAfter]
    | stop | actorExited | dns | postConfig | connected | dialFailed | other => rfl
  | some entry =>
    cases event with
    | deleteConfig peerIds =>
      simp only [entryAfter, ite_eq_left_iff, reduceCtorEq, imp_false, not_not] at gone
      simp [Event.registeredAfter, gone]
    | postConfig peers =>
      simp only [entryAfter] at gone
      split at gone <;> cases gone
    | actorExited policy => cases policy <;> cases gone
    | connected peerId remoteAddr tx endpoint =>
      simp only [entryAfter] at gone
      split at gone <;> cases gone
    | dialFailed peerId ip =>
      simp only [entryAfter] at gone
      split at gone <;> cases gone
    | stop | dns | other => cases gone

end Orchestrator

/-! ## Runs -/

namespace System

def waitingChannels (sys : System Trie) : List Sender :=
  sys.inbox.filterMap fun envelope => envelope.event.channel

/-- The effect of a step on the channels that wait: it takes the channel of the event that is
handled, or it adds fresh ones. -/
structure ChannelsMove (sys after : System Trie) (action : Action)
    (added : List Sender) : Prop where
  waiting : ((sys.handled action).bind Event.channel).toList ++ after.waitingChannels =
    sys.waitingChannels ++ added
  nodup : added.Nodup
  fresh : ∀ tx ∈ added, tx ∉ sys.issued
  issued : ∀ tx, tx ∈ sys.issued ∨ tx ∈ added → tx ∈ after.issued
  closed : sys.closed ⊆ after.closed

theorem channelsMove_handled {sys after : System Trie} {action : Action}
    (waiting : ((sys.handled action).bind Event.channel).toList ++ after.waitingChannels =
      sys.waitingChannels)
    (issued : after.issued = sys.issued) (closed : after.closed = sys.closed) :
    ChannelsMove sys after action [] where
  waiting := by rw [waiting, List.append_nil]
  nodup := List.nodup_nil
  fresh tx member := absurd member List.not_mem_nil
  issued tx member := by
    rw [issued]
    exact member.resolve_right List.not_mem_nil
  closed := by rw [closed]

theorem channelsMove_deliver {sys : System Trie} {action : Action} {envelope : Envelope}
    (tasks : Multiset DialTask) (other : sys.handled action = none)
    (fresh : Disjoint envelope.event.channels sys.issued) :
    ChannelsMove sys ({ sys with dialTasks := tasks }.deliver envelope) action
      envelope.event.channel.toList where
  waiting := by
    rw [other, waitingChannels, waitingChannels, deliver, List.filterMap_append]
    cases channel : envelope.event.channel <;> simp [channel]
  nodup := by cases envelope.event.channel <;> simp
  fresh tx member issued := Finset.disjoint_left.mp fresh
    (Event.mem_channels_of_channel member) issued
  issued tx member := by
    rw [deliver, Finset.mem_union]
    exact member.symm.imp_left Event.mem_channels_of_channel
  closed := Finset.Subset.refl _

variable [PrefixTrie Trie] {tuning : DnsTuning} {action : Action} {sys after : System Trie}

theorem channels_step (taken : sys.step tuning action = some after) :
    ∃ added, ChannelsMove sys after action added := by
  cases moves_of_step taken with
  | @handled now listed envelope rest reaction queued running later lists reacts =>
    refine ⟨[], channelsMove_handled ?_ ?_ ?_⟩
    · rw [remember_eq]
      cases channel : envelope.event.channel <;> simp [System.handled, waitingChannels, queued,
        channel, absorb]
    · rw [remember_eq]
      rfl
    · rw [remember_eq]
      rfl
  | @stopped now listed envelope rest queued leaves =>
    refine ⟨[], channelsMove_handled ?_ rfl rfl⟩
    cases channel : envelope.event.channel <;> simp [System.handled, waitingChannels, queued,
      channel]
  | reconciled => exact ⟨[], channelsMove_handled rfl rfl rfl⟩
  | @registered now hosts rest dns emitted queued later iterated =>
    refine ⟨[], channelsMove_handled ?_ rfl rfl⟩
    cases emitted <;> simp [System.handled, waitingChannels, Event.channel]
  | @resolved now input dns emitted other later iterated =>
    refine ⟨[], channelsMove_handled ?_ rfl rfl⟩
    cases emitted <;> simp [System.handled, waitingChannels, Event.channel]
  | connected dialed runs fresh =>
    exact ⟨_, channelsMove_deliver _ rfl (Finset.disjoint_singleton_left.mpr fresh)⟩
  | failed runs => exact ⟨_, channelsMove_deliver _ rfl (Finset.disjoint_empty_left _)⟩
  | arrived plain fresh => exact ⟨_, channelsMove_deliver sys.dialTasks rfl fresh⟩
  | routed | filtered | authorised | synced | aborted =>
    exact ⟨[], channelsMove_handled rfl rfl rfl⟩
  | closed =>
    refine ⟨[], by simp [System.handled, waitingChannels, close],
      List.nodup_nil, by simp, by simp [close], ?_⟩
    exact Finset.subset_insert _ _

end System

/-- The system, with the bounds registered for the entry of one peer since it was created. -/
structure Paths (Trie : Type → Type) where
  sys : System Trie
  registered : List ActiveConn

namespace Paths

variable [PrefixTrie Trie]

def step (tuning : DnsTuning) (id : String) (action : Action)
    (seen : Paths Trie) : Option (Paths Trie) :=
  (seen.sys.step tuning action).map fun after =>
    ⟨after, (seen.sys.handled action).elim seen.registered
      (Event.registeredAfter id (seen.sys.orch.peers.lookup id).isSome seen.registered)⟩

omit [PrefixTrie Trie] in
/-- Channels are used once, and the bounds of the peer are registered ones in their order. -/
structure Ordered (id : String) (seen : Paths Trie) : Prop where
  nodup : (seen.registered.map ActiveConn.tx ++ seen.sys.waitingChannels).Nodup
  issued : ∀ tx ∈ seen.registered.map ActiveConn.tx ++ seen.sys.waitingChannels,
    tx ∈ seen.sys.issued
  unknown : seen.sys.orch.peers.lookup id = none → seen.registered = []
  sublist : ∀ entry, seen.sys.orch.peers.lookup id = some entry →
    entry.bounds.Sublist seen.registered
  inbound : ∀ entry, seen.sys.orch.peers.lookup id = some entry → ∀ bound ∈ seen.registered,
    bound.endpoint = none →
    bound.tx ∉ seen.sys.closed → bound ∈ entry.bounds

variable {tuning : DnsTuning} {id : String} {action : Action} {seen after : Paths Trie}

theorem bounds_step (taken : seen.step tuning id action = some after) {entry next : PeerEntry}
    (known : seen.sys.orch.peers.lookup id = some entry)
    (found : after.sys.orch.peers.lookup id = some next) :
    ∃ added, after.registered = seen.registered ++ added ∧
      ((∃ event ∈ seen.sys.handled action, event.Prunes id) →
        next.bounds = (entry.bounds ++ added).filter (next.keeps seen.sys.isClosed)) ∧
      ((¬ ∃ event ∈ seen.sys.handled action, event.Prunes id) → added = [] ∧
        next.bounds = entry.bounds) := by
  obtain ⟨sys, moved, rfl⟩ := Option.map_eq_some_iff.mp taken
  rcases System.entry_step moved id with ⟨event, env, handled, reacts⟩ | ⟨handled, same⟩
  · rw [reacts.entry, known] at found
    obtain ⟨pruned, kept⟩ := Orchestrator.bounds_entryAfter found
    rw [reacts.closed] at pruned
    refine ⟨event.registers id, ?_, ?_, ?_⟩
    · rw [handled, known]
      exact Orchestrator.registeredAfter_entryAfter found seen.registered
    · rintro ⟨same, member, prunes⟩
      rw [handled, Option.mem_some_iff] at member
      subst member
      exact pruned prunes
    · intro none
      exact kept fun prunes => none ⟨event, handled, prunes⟩
  · rw [same, known, Option.some.injEq] at found
    subst found
    refine ⟨[], by simp [handled], ?_, fun _ => ⟨rfl, rfl⟩⟩
    rintro ⟨event, member, _⟩
    rw [handled] at member
    cases member

namespace Ordered

theorem channels_step (ordered : seen.Ordered id)
    (taken : seen.step tuning id action = some after) :
    (after.registered.map ActiveConn.tx ++ after.sys.waitingChannels).Nodup ∧
      (∀ tx ∈ after.registered.map ActiveConn.tx ++ after.sys.waitingChannels,
        tx ∈ after.sys.issued) ∧
      seen.sys.closed ⊆ after.sys.closed := by
  obtain ⟨sys, moved, rfl⟩ := Option.map_eq_some_iff.mp taken
  obtain ⟨added, moves⟩ := System.channels_step moved
  have sublist : (((seen.sys.handled action).elim seen.registered
        (Event.registeredAfter id (seen.sys.orch.peers.lookup id).isSome seen.registered)).map
          ActiveConn.tx ++
      sys.waitingChannels).Sublist (seen.registered.map ActiveConn.tx ++ seen.sys.waitingChannels ++
        added) := by
    rw [List.append_assoc, ← moves.waiting, ← List.append_assoc]
    refine List.Sublist.append ?_ (List.Sublist.refl _)
    cases seen.sys.handled action with
    | none => exact List.sublist_append_left _ _
    | some event => exact Event.registeredAfter_channel id _ _ event
  have nodup : (seen.registered.map ActiveConn.tx ++ seen.sys.waitingChannels ++ added).Nodup := by
    refine ordered.nodup.append moves.nodup fun tx old new => ?_
    exact moves.fresh tx new (ordered.issued tx old)
  refine ⟨nodup.sublist sublist, fun tx member => moves.issued tx ?_, moves.closed⟩
  exact (List.mem_append.mp (sublist.subset member)).imp_left (ordered.issued tx)

theorem step (ordered : seen.Ordered id)
    (taken : seen.step tuning id action = some after) : after.Ordered id := by
  obtain ⟨nodup, issued, closed⟩ := ordered.channels_step taken
  -- an entry that was not known has no bounds, and nothing is registered for it
  have created (next : PeerEntry) (unknown : seen.sys.orch.peers.lookup id = none)
      (found : after.sys.orch.peers.lookup id = some next) : next.bounds = [] ∧
        after.registered = [] := by
    obtain ⟨sys, moved, rfl⟩ := Option.map_eq_some_iff.mp taken
    rcases System.entry_step moved id with ⟨event, env, handled, reacts⟩ | ⟨handled, same⟩
    · rw [reacts.entry, unknown] at found
      obtain ⟨none, same⟩ := Orchestrator.created_entryAfter found seen.registered
      refine ⟨none, ?_⟩
      rw [handled, unknown]
      exact same.trans (ordered.unknown unknown)
    · rw [same, unknown] at found
      cases found
  refine ⟨nodup, issued, fun gone => ?_, fun next found => ?_,
    fun next found bound member incoming opened => ?_⟩
  · obtain ⟨sys, moved, rfl⟩ := Option.map_eq_some_iff.mp taken
    rcases System.entry_step moved id with ⟨event, env, handled, reacts⟩ | ⟨handled, same⟩
    · rw [reacts.entry] at gone
      rw [handled]
      exact Orchestrator.deleted_entryAfter ordered.unknown gone
    · rw [same] at gone
      rw [handled]
      exact ordered.unknown gone
  · cases known : seen.sys.orch.peers.lookup id with
    | none =>
      rw [(created next known found).1]
      exact List.nil_sublist _
    | some entry =>
      obtain ⟨added, registered, pruned, kept⟩ := bounds_step taken known found
      rw [registered]
      by_cases prunes : ∃ event ∈ seen.sys.handled action, event.Prunes id
      · rw [pruned prunes]
        exact List.filter_sublist.trans ((ordered.sublist entry known).append (List.Sublist.refl _))
      · rw [(kept prunes).2]
        exact (ordered.sublist entry known).trans (List.sublist_append_left _ _)
  · cases known : seen.sys.orch.peers.lookup id with
    | none =>
      rw [(created next known found).2] at member
      cases member
    | some entry =>
      obtain ⟨added, registered, pruned, kept⟩ := bounds_step taken known found
      have wasOpen : bound.tx ∉ seen.sys.closed := fun member => opened (closed member)
      have before : bound ∈ entry.bounds ++ added := by
        rw [registered] at member
        refine List.mem_append.mpr ((List.mem_append.mp member).imp_left fun old => ?_)
        exact ordered.inbound entry known bound old incoming wasOpen
      by_cases prunes : ∃ event ∈ seen.sys.handled action, event.Prunes id
      · rw [pruned prunes]
        refine List.mem_filter.mpr ⟨before, PeerEntry.keeps_iff.mpr ?_⟩
        simp [PeerEntry.Stale, System.isClosed, incoming, wasOpen]
      · obtain ⟨none, same⟩ := kept prunes
        rwa [same, ← List.append_nil entry.bounds, ← none]

end Ordered

theorem ordered_of_reaches {orch : Orchestrator} {peers : List Peer}
    (reached : Reaches (Paths.step tuning id) (fun _ _ => True) ⟨System.new orch peers, []⟩ seen) :
      seen.Ordered id := by
  refine reached.invariant ?_ fun _ _ _ ordered _ taken => ordered.step taken
  refine ⟨?_, ?_, fun _ => rfl, fun entry found => ?_, ?_⟩
  · simp [System.waitingChannels, System.new]
  · simp [System.waitingChannels, System.new]
  · obtain ⟨peer, rfl, rfl⟩ := Orchestrator.fresh_initialPeers found
    exact List.Sublist.refl []
  · intro entry found bound member
    cases member

theorem head?_of_sublist {α : Type} [DecidableEq α] {chosen all : List α}
    (sublist : chosen.Sublist all) (nodup : all.Nodup) :
    chosen.head? = all.find? fun element => decide (element ∈ chosen) := by
  induction sublist with
  | slnil => rfl
  | cons element sublist ih =>
    obtain ⟨absent, rest⟩ := List.nodup_cons.mp nodup
    rw [ih rest, List.find?_cons_of_neg]
    simpa using fun member => absent (sublist.subset member)
  | cons_cons element sublist ih => simp

theorem Ordered.preferred_step (ordered : seen.Ordered id)
    (taken : seen.step tuning id action = some after) {entry next : PeerEntry}
    (known : seen.sys.orch.peers.lookup id = some entry)
    (found : after.sys.orch.peers.lookup id = some next) {first : ActiveConn}
    (head : entry.bounds.head? = some first) :
    next.preferredTx ≠ entry.preferredTx ↔ first ∉ next.bounds := by
  have later := ordered.step taken
  obtain ⟨added, registered, pruned, kept⟩ := bounds_step taken known found
  have stays (member : first ∈ next.bounds) : next.bounds.head? = some first := by
    by_cases prunes : ∃ event ∈ seen.sys.handled action, event.Prunes id
    · rw [pruned prunes] at member ⊢
      obtain ⟨rest, split⟩ := List.head?_eq_some_iff.mp head
      rw [split, List.cons_append, List.filter_cons_of_pos (List.mem_filter.mp member).2,
        List.head?_cons]
    · rw [(kept prunes).2, head]
  have registeredBefore : first ∈ after.registered := by
    rw [registered]
    exact List.mem_append_left _ ((ordered.sublist entry known).subset (List.mem_of_head? head))
  unfold PeerEntry.preferredTx
  rw [head, Option.map_some]
  constructor
  · intro moved member
    exact moved (by rw [stays member, Option.map_some])
  · intro gone same
    obtain ⟨bound, first, channel⟩ := Option.map_eq_some_iff.mp same
    have member := List.mem_of_head? first
    -- two bounds of one channel are the same
    have channels := (List.nodup_append.mp later.nodup).1
    have equal := List.inj_on_of_nodup_map channels ((later.sublist next found).subset member)
      registeredBefore channel
    exact gone (equal ▸ member)

/-- At every time the bounds of a peer are registered ones in their order, the preferred one is
the oldest of them, and every inbound one with an open channel is among them. Bounds leave at a
prune, exactly those that are stale there, and the preferred TX moves exactly when its bound
leaves. Every prune reports whether the preferred TX moved, changes nothing when it is repeated,
and leaves dial states of resolved addresses only. -/
theorem stable_paths (tuning : DnsTuning) (orch : Orchestrator) (peers : List Peer) (id : String)
    {seen : Paths Trie}
    (reached : Reaches (Paths.step tuning id) (fun _ _ => True) ⟨System.new orch peers, []⟩ seen) :
    (∀ entry, seen.sys.orch.peers.lookup id = some entry →
      (seen.registered.map ActiveConn.tx).Nodup ∧ entry.bounds.Sublist seen.registered ∧
      entry.bounds.head? = (seen.registered.find? fun bound => decide (bound ∈ entry.bounds)) ∧
      ∀ bound ∈ seen.registered, bound.endpoint = none → bound.tx ∉ seen.sys.closed →
        bound ∈ entry.bounds) ∧
    (∀ action after entry next, seen.step tuning id action = some after →
      seen.sys.orch.peers.lookup id = some entry →
      after.sys.orch.peers.lookup id = some next →
      (∃ added, after.registered = seen.registered ++ added ∧
        ((∃ event ∈ seen.sys.handled action, event.Prunes id) → ∀ bound,
          bound ∈ next.bounds ↔ bound ∈ entry.bounds ++ added ∧
          ¬ next.Stale seen.sys.isClosed bound) ∧
        ((¬ ∃ event ∈ seen.sys.handled action, event.Prunes id) → next.bounds = entry.bounds)) ∧
      ∀ first, entry.bounds.head? = some first →
        (next.preferredTx ≠ entry.preferredTx ↔ first ∉ next.bounds)) ∧
    ∀ (entry : PeerEntry) (isClosed : Sender → Bool),
      ((entry.prune isClosed).2 = true ↔ (entry.prune isClosed).1.preferredTx ≠ entry.preferredTx) ∧
      (∀ later : Sender → Bool, (∀ tx, later tx = true → isClosed tx = true) →
        (entry.prune isClosed).1.prune later = ((entry.prune isClosed).1, false)) ∧
      ∀ ip state, (entry.prune isClosed).1.dials.lookup ip = some state →
        ip ∈ entry.resolvedIps := by
  have ordered := ordered_of_reaches reached
  refine ⟨fun entry known => ?_, fun action after entry next taken known found =>
    ⟨?_, fun first head => ?_⟩,
    fun entry isClosed => ⟨PeerEntry.prune_flag, fun later => PeerEntry.prune_prune,
      fun ip state => PeerEntry.prune_resolved⟩⟩
  · have channels := (List.nodup_append.mp ordered.nodup).1
    have sublist := ordered.sublist entry known
    exact ⟨channels, sublist, head?_of_sublist sublist channels.of_map, ordered.inbound entry known⟩
  · obtain ⟨added, registered, pruned, kept⟩ := bounds_step taken known found
    refine ⟨added, registered, fun prunes bound => ?_, fun none => (kept none).2⟩
    rw [pruned prunes, List.mem_filter, PeerEntry.keeps_iff]
  · exact ordered.preferred_step taken known found head

open H3llo.Orch.System (sampleTuning sampleOrch fixedRelay)

def failover : List Action :=
  [.external (.connected "relay" ⟨.v4 0xc6336401#32, 4433⟩ ⟨7⟩ none), .handle 1 [fixedRelay],
    .external (.connected "relay" ⟨.v4 0xc6336402#32, 4433⟩ ⟨8⟩ none), .handle 2 [fixedRelay],
      .close ⟨7⟩]

theorem stable_paths_failover : ∃ seen after : Paths AssocTrie, ∃ entry next,
    seen.sys.orch.peers.lookup "relay" = some entry ∧ entry.preferredTx = some ⟨7⟩ ∧
      seen.step sampleTuning "relay" (.reconcile 3 [fixedRelay]) = some after ∧
      after.sys.orch.peers.lookup "relay" = some next ∧ next.preferredTx ≠ entry.preferredTx ∧
      next.preferredTx = some ⟨8⟩ := by
  have executes : ((run (Paths.step sampleTuning "relay") failover
      (⟨System.new sampleOrch [fixedRelay], []⟩ : Paths AssocTrie)).any fun seen =>
        (seen.step sampleTuning "relay" (.reconcile 3 [fixedRelay])).any fun after =>
          (seen.sys.orch.peers.lookup "relay").any fun entry =>
            (after.sys.orch.peers.lookup "relay").any fun next =>
            decide (entry.bounds.head? = some ⟨none, ⟨.v4 0xc6336401#32, 4433⟩, ⟨7⟩, ()⟩ ∧
              entry.preferredTx = some ⟨7⟩ ∧
              ⟨none, ⟨.v4 0xc6336401#32, 4433⟩, ⟨7⟩, ()⟩ ∉ next.bounds ∧
                next.preferredTx = some ⟨8⟩)) = true := by
    decide +kernel
  obtain ⟨seen, executed, further⟩ := (Option.any_eq_true ..).mp executes
  obtain ⟨after, taken, further⟩ := (Option.any_eq_true ..).mp further
  obtain ⟨entry, known, further⟩ := (Option.any_eq_true ..).mp further
  obtain ⟨next, found, facts⟩ := (Option.any_eq_true ..).mp further
  obtain ⟨head, preferred, gone, moved⟩ := of_decide_eq_true facts
  have reached : Reaches (Paths.step sampleTuning "relay") (fun _ _ => True) _ seen :=
    reaches_of_run (fun _ _ _ => trivial) executed
  have stable := (stable_paths sampleTuning sampleOrch [fixedRelay] "relay" reached).2.1 _ after
    entry next taken known found
  exact ⟨seen, after, entry, next, known, preferred, taken, found,
    (stable.2 _ head).mpr gone, moved⟩

end Paths

end H3llo.Orch
