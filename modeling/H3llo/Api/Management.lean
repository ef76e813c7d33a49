import H3llo.Basis.Linear
import H3llo.Orch.Transactions

/-! The management API and the orchestrator behind it.

A connection sends an event with a reply channel to the orchestrator and waits for the
reply. Connections are served concurrently, and between their calls the orchestrator
handles events of other actors. The configurations in a reply are unordered, as the source
lists them from a hash map.
-/

set_option autoImplicit false

namespace H3llo.Api
open H3llo.Config H3llo.Orch H3llo.Net H3llo.Linear H3llo.Runs
open H3llo.Orch.System (sampleOrch relay fixedRelay)

inductive Operation where
  | getConfig
  | postConfig (peers : List Peer)
  | deleteConfig (peerIds : List String)
  | getMetrics

/-- What comes back through the reply channel. The content of a metrics snapshot is left out. -/
inductive Reply where
  | config (peers : HashMap String Peer)
  | invalid (text : String)
  | metrics

def Operation.event : Operation → Event
  | .postConfig peers => .postConfig peers
  | .deleteConfig peerIds => .deleteConfig peerIds
  | .getConfig | .getMetrics => .other

variable {Trie : Type → Type} [PrefixTrie Trie]

def handleCall (env : Env) (orch : Orchestrator) : Operation → Reaction Trie × Reply
  | .getConfig => (orch.idle, .config orch.peerConfigs)
  | .postConfig peers =>
      match orch.handlePostConfig env peers with
      | .ok reaction => (reaction, .config reaction.orch.peerConfigs)
      | .error text => (orch.idle, .invalid text)
  | .deleteConfig peerIds =>
      let reaction := orch.handleDeleteConfig peerIds
      (reaction, .config reaction.orch.peerConfigs)
  | .getMetrics => (orch.idle, .metrics)

variable (Trie) in
theorem handleEvent_handleCall (env : Env) (orch : Orchestrator) (operation : Operation) :
    orch.handleEvent env operation.event =
      some (handleCall env orch operation : Reaction Trie × Reply).1 := by
  cases operation with
  | getConfig => rfl
  | postConfig peers =>
    simp only [Operation.event, Orchestrator.handleEvent, handleCall]
    cases (orch.handlePostConfig env peers : Except String (Reaction Trie)) <;> rfl
  | deleteConfig peerIds => rfl
  | getMetrics => rfl

/-! ## Calls and connections -/

/-- The orchestrator's loop runs, or it was left, or the inbox is gone with the orchestrator. -/
inductive Phase where
  | running | stopping | gone
  deriving DecidableEq, Repr

structure Management where
  orch : Orchestrator
  phase : Phase
  inbox : List (Nat × Operation)
  /-- Values in reply channels. -/
  replies : List (Nat × Reply)
  calls : Nat
  history : List (Occurrence Nat Operation Reply)

inductive Action where
  | call (operation : Operation)
  /-- The orchestrator handles its oldest call. -/
  | handle (env : Env)
  /-- It handles another event, or reconciles. -/
  | other (env : Env) (event : Event)
  | stop
  | dropInbox
  /-- The connection gets its reply. -/
  | answer (index : Nat)
  /-- The connection sees that its reply channel was dropped. -/
  | fail (index : Nat)

def IsForeign : Event → Prop
  | .postConfig _ | .deleteConfig _ => False
  | .stop | .actorExited _ | .dns _ | .connected .. | .dialFailed .. | .other => True

instance (event : Event) : Decidable (IsForeign event) := by
  cases event <;> first | exact isTrue trivial | exact isFalse id

namespace Management

def new (orch : Orchestrator) (peers : List Peer) : Management where
  orch := { orch with peers := Orchestrator.initialPeers peers }
  phase := .running
  inbox := []
  replies := []
  calls := 0
  history := []

def lists (env : Env) (event : Event) (orch : Orchestrator) : Bool :=
  decide (HashMap.Enumerates env.listed (orch.listedBy event))

def step (Trie : Type → Type) [PrefixTrie Trie] (action : Action)
    (api : Management) : Option Management :=
  match action with
  | .call operation =>
      let id := api.calls
      match api.phase with
      | .running | .stopping =>
          some { api with
            inbox := api.inbox ++ [(id, operation)]
            calls := id + 1
            history := api.history ++ [.invoked id operation] }
      | .gone =>
          some { api with
            calls := id + 1
            history := api.history ++ [.invoked id operation, .returned id none] }
  | .handle env =>
      match api.phase, api.inbox with
      | .running, (id, operation) :: rest =>
          if lists env operation.event api.orch then
            let (reaction, reply) := (handleCall env api.orch operation : Reaction Trie × Reply)
            some { api with
              orch := reaction.orch
              inbox := rest
              replies := api.replies ++ [(id, reply)] }
          else none
      | _, _ => none
  | .other env event =>
      if api.phase = .running ∧ IsForeign event ∧ lists env event api.orch then
        match (api.orch.handleEvent env event : Option (Reaction Trie)) with
        | some reaction => some { api with orch := reaction.orch }
        | none => some { api with phase := .stopping }
      else none
  | .stop => if api.phase = .running then some { api with phase := .stopping } else none
  | .dropInbox => if api.phase = .stopping then some { api with phase := .gone } else none
  | .answer index =>
      api.replies[index]?.map fun (id, reply) =>
        { api with
          replies := api.replies.eraseIdx index
          history := api.history ++ [.returned id (some reply)] }
  | .fail index =>
      if api.phase = .gone then
        api.inbox[index]?.map fun (id, _) =>
          { api with
            inbox := api.inbox.eraseIdx index
            history := api.history ++ [.returned id none] }
      else none

end Management

/-! ## The configuration as an object -/

def upsert (peers : List Peer) (configs : HashMap String Peer) : HashMap String Peer :=
  peers.foldl (fun merged peer => merged.insert peer.id peer) configs

def remove (peerIds : List String) (configs : HashMap String Peer) : HashMap String Peer :=
  peerIds.foldl (fun peers id => peers.erase id) configs

/-- What a call does to the set of peers when nothing else happens. -/
inductive Answers (configs : HashMap String Peer) :
    Operation → HashMap String Peer → Reply → Prop where
  | read : Answers configs .getConfig configs (.config configs)
  | posted {peers : List Peer} (valid : PeersValid (upsert peers configs)) :
      Answers configs (.postConfig peers) (upsert peers configs) (.config (upsert peers configs))
  | refused {peers listed : List Peer} {errors : List ValidationError}
      (invalid : ¬ PeersValid (upsert peers configs))
      (lists : HashMap.Enumerates listed (upsert peers configs))
      (found : validatePeers listed = .error errors) :
      Answers configs (.postConfig peers) configs (.invalid (validationText errors))
  | deleted {peerIds : List String} :
      Answers configs (.deleteConfig peerIds) (remove peerIds configs)
        (.config (remove peerIds configs))
  | measured : Answers configs .getMetrics configs .metrics

section Handled

variable {env : Env} {orch : Orchestrator} (keyed : PeersKeyed orch.peerConfigs)

theorem peerConfigs_remove (peerIds : List String) (orch : Orchestrator) :
    ({ orch with peers := peerIds.foldl (fun peers id => peers.erase id) orch.peers } :
      Orchestrator).peerConfigs =
      remove peerIds orch.peerConfigs := by
  induction peerIds generalizing orch with
  | nil => rfl
  | cons head rest ih =>
    have erased : ({ orch with peers := orch.peers.erase head } : Orchestrator).peerConfigs =
        orch.peerConfigs.erase head := by
      apply Finmap.ext_lookup
      intro id
      by_cases same : id = head
      · subst same
        simp [Orchestrator.peerConfigs]
      · simp [Finmap.lookup_erase_ne same, Orchestrator.peerConfigs]
    have later := ih { orch with peers := orch.peers.erase head }
    rw [erased] at later
    exact later

variable (Trie) in
omit [PrefixTrie Trie] in
include keyed in
theorem answers_handleCall (operation : Operation)
    (lists : HashMap.Enumerates env.listed (orch.listedBy operation.event)) :
    Answers orch.peerConfigs operation (handleCall env orch operation : Reaction Trie ×
      Reply).1.orch.peerConfigs
      (handleCall env orch operation : Reaction Trie × Reply).2 := by
  cases operation with
  | getConfig => exact .read
  | getMetrics => exact .measured
  | deleteConfig peerIds =>
    simp only [handleCall, Orchestrator.handleDeleteConfig, peerConfigs_remove]
    exact .deleted
  | postConfig peers =>
    have merged : orch.mergedPeers peers = upsert peers orch.peerConfigs := rfl
    have accepted := validatePeers_iff_of_enumerates
      (Orchestrator.keyed_mergedPeers keyed peers) lists
    simp only [handleCall, Orchestrator.handlePostConfig]
    cases validated : validatePeers env.listed with
    | error errors =>
      refine .refused (fun valid => ?_) lists validated
      rw [accepted.mpr valid] at validated
      cases validated
    | ok checked =>
      simp only [Orchestrator.peerConfigs_upsertPeers, merged]
      exact .posted (accepted.mp validated)

theorem peerConfigs_foreign {event : Event} {reaction : Reaction Trie} (foreign : IsForeign event)
    (reacts : orch.handleEvent env event = some reaction) :
    reaction.orch.peerConfigs = orch.peerConfigs := by
  cases Orchestrator.handleEvent_configs reacts with
  | kept configs hosts tokens => exact configs
  | posted accepted updated => exact foreign.elim
  | deleted updated => exact foreign.elim

end Handled

/-! ## Refinement -/

namespace Management

/-- The server of the calls is the orchestrator, and its state is the set of peers. -/
structure Refines (api : Management)
    (server : Server Nat Operation Reply (HashMap String Peer)) : Prop where
  state : server.state = api.orch.peerConfigs
  queue : server.queue = api.inbox
  replies : server.replies = api.replies
  history : server.history = api.history
  keyed : PeersKeyed api.orch.peerConfigs
  numbered : ∀ id operation, .invoked id operation ∈ api.history → id < api.calls

theorem Refines.fresh {api : Management}
    {server : Server Nat Operation Reply (HashMap String Peer)} (refines : Refines api server)
    (operation : Operation) : .invoked api.calls operation ∉ server.history := by
  intro invoked
  rw [refines.history] at invoked
  exact Nat.lt_irrefl _ (refines.numbered _ _ invoked)

theorem split_of_getElem? {Value : Type} {values : List Value} {index : Nat} {value : Value}
    (found : values[index]? = some value) :
    ∃ before after, values = before ++ value :: after ∧ values.eraseIdx index =
      before ++ after := by
  obtain ⟨inside, rfl⟩ := List.getElem?_eq_some_iff.mp found
  refine ⟨values.take index, values.drop (index + 1), ?_,
    List.eraseIdx_eq_take_drop_succ values index⟩
  rw [List.cons_getElem_drop_succ, List.take_append_drop]

theorem numbered_call {api : Management}
    {server : Server Nat Operation Reply (HashMap String Peer)} (refines : Refines api server)
    (operation : Operation) (more : List (Occurrence Nat Operation Reply))
    (returns : ∀ id other, .invoked id other ∉ more) (id : Nat) (other : Operation)
    (member : .invoked id other ∈ api.history ++ .invoked api.calls operation :: more) :
    id < api.calls + 1 := by
  rcases List.mem_append.mp member with old | new
  · exact Nat.lt_succ_of_lt (refines.numbered id other old)
  · rcases List.mem_cons.mp new with same | absent
    · cases same
      exact Nat.lt_succ_self _
    · exact absurd absent (returns id other)

theorem refines_step {api after : Management}
    {server : Server Nat Operation Reply (HashMap String Peer)} {action : Action}
    (refines : Refines api server) (taken : api.step Trie action = some after) :
    ∃ next, Relation.ReflTransGen (Step Answers) server next ∧ Refines after next := by
  have keeps : Relation.ReflTransGen (Step Answers) server server := .refl
  have moves {next : Server Nat Operation Reply (HashMap String Peer)}
      (moved : Step Answers server next) :
      Relation.ReflTransGen (Step Answers) server next := .single moved
  cases action with
  | call operation =>
    -- The new call has the next number, so that it is fresh for the object too.
    have queued := numbered_call refines operation [] (by simp)
    have refused := numbered_call refines operation [.returned api.calls none] (by simp)
    simp only [step] at taken
    cases phase : api.phase with
    -- A stopping orchestrator still has its inbox: the call is queued, and its reply channel is
    -- dropped later.
    | running | stopping =>
      simp only [phase, Option.some.injEq] at taken
      subst taken
      refine ⟨_, moves (.invoke api.calls operation (refines.fresh ·)), refines.state, ?_,
        refines.replies, ?_,
        refines.keyed, queued⟩
      · simp only [refines.queue]
      · simp only [refines.history]
    | gone =>
      simp only [phase, Option.some.injEq] at taken
      subst taken
      refine ⟨_, moves (.turnAway api.calls operation (refines.fresh ·)), refines.state,
        refines.queue, refines.replies, ?_,
        refines.keyed, refused⟩
      simp only [refines.history]
  | handle env =>
    simp only [step] at taken
    split at taken
    next id operation rest _ oldest =>
      split at taken
      next isListed =>
        cases taken
        have isList := of_decide_eq_true isListed
        have answered := answers_handleCall Trie refines.keyed operation isList
        have oldestServer : server.queue = (id, operation) :: rest := refines.queue.trans oldest
        rw [← refines.state] at answered
        refine ⟨_, moves (.handle oldestServer answered), rfl, rfl, ?_, refines.history, ?_,
          refines.numbered⟩
        · simp only [refines.replies]
        · exact refines.keyed.effect
            (Orchestrator.handleEvent_configs (handleEvent_handleCall Trie env api.orch operation))
      next => cases taken
    next => cases taken
  -- What is no call leaves the configurations alone, and the object does not move.
  | other env event =>
    simp only [step] at taken
    split at taken
    next allowed =>
      cases reacts : (api.orch.handleEvent env event : Option (Reaction Trie)) with
      | none =>
        simp only [reacts, Option.some.injEq] at taken
        subst taken
        exact ⟨server, keeps, refines.state, refines.queue, refines.replies, refines.history,
          refines.keyed, refines.numbered⟩
      | some reaction =>
        simp only [reacts, Option.some.injEq] at taken
        subst taken
        have same := peerConfigs_foreign allowed.2.1 reacts
        refine ⟨server, keeps, ?_, refines.queue, refines.replies, refines.history, ?_,
          refines.numbered⟩
        · rw [refines.state, same]
        · rw [same]
          exact refines.keyed
    next => cases taken
  | stop =>
    simp only [step] at taken
    split at taken <;> cases taken
    exact ⟨server, keeps, refines.state, refines.queue, refines.replies, refines.history,
      refines.keyed, refines.numbered⟩
  | dropInbox =>
    simp only [step] at taken
    split at taken <;> cases taken
    exact ⟨server, keeps, refines.state, refines.queue, refines.replies, refines.history,
      refines.keyed, refines.numbered⟩
  | answer index =>
    obtain ⟨⟨id, reply⟩, found, rfl⟩ := Option.map_eq_some_iff.mp taken
    obtain ⟨before, rest, split, erased⟩ := split_of_getElem? found
    have given : server.replies = before ++ (id, reply) :: rest := refines.replies.trans split
    refine ⟨_, moves (.claim given), refines.state, refines.queue, erased.symm, ?_,
      refines.keyed, ?_⟩
    · simp only [refines.history]
    · intro other operation member
      exact refines.numbered other operation (by simpa using member)
  -- The reply channel of a queued call goes with the inbox, without an effect of the call.
  | fail index =>
    simp only [step] at taken
    split at taken
    next =>
      obtain ⟨⟨id, operation⟩, found, rfl⟩ := Option.map_eq_some_iff.mp taken
      obtain ⟨before, rest, split, erased⟩ := split_of_getElem? found
      have waiting : server.queue = before ++ (id, operation) :: rest := refines.queue.trans split
      refine ⟨_, moves (.abandon waiting), refines.state, erased.symm, refines.replies, ?_,
        refines.keyed, ?_⟩
      · simp only [refines.history]
      · intro other operation member
        exact refines.numbered other operation (by simpa using member)
    next => cases taken

theorem refines_of_reaches {orch : Orchestrator} {peers : List Peer} {api : Management}
    (reached : Reaches (step Trie) (fun _ _ => True) (new orch peers) api) :
    ∃ server, Relation.ReflTransGen (Step Answers) (start (new orch peers).orch.peerConfigs)
      server ∧ Refines api server := by
  induction reached with
  | refl =>
    refine ⟨_, .refl, rfl, rfl, rfl, rfl, fun id peer found => ?_, nofun⟩
    exact (Orchestrator.lookup_initialConfigs found).2
  | next _ _ taken ih =>
    obtain ⟨server, before, refines⟩ := ih
    obtain ⟨next, moved, refined⟩ := refines_step refines taken
    exact ⟨next, before.trans moved, refined⟩

/-- However connections, the orchestrator and its other events interleave, the calls of the API are
those of one configuration: there is an order of the calls that were answered in which each has
read or changed the whole set of peers at once. It respects the order of calls that do not overlap,
a failed call is not part of it, and no call returns twice. -/
theorem management_linearizable {orch : Orchestrator} {peers : List Peer} {api : Management}
    (reached : Reaches (step Trie) (fun _ _ => True) (new orch peers) api) :
    ∃ log, Linearizable Answers (new orch peers).orch.peerConfigs api.history log := by
  obtain ⟨server, moved, refines⟩ := refines_of_reaches reached
  have linear := linearizable moved
  rw [refines.history] at linear
  exact ⟨server.log, linear⟩

def sampleActions : List Action :=
  let env (now : Nat) (listed : List Peer) : Env := ⟨now, fun _ => false, listed⟩
  [.call (.postConfig [fixedRelay]), .call .getConfig, .handle (env 1 [fixedRelay]),
    .handle (env 2 [fixedRelay]),
    .answer 1, .answer 0, .stop, .call .getConfig, .dropInbox, .fail 0]

theorem management_linearizable_sample :
    ∃ api, run (step AssocTrie) sampleActions (new sampleOrch [relay]) = some api ∧
    api.history.length = 6 ∧ ∃ log, Linearizable Answers (new sampleOrch [relay]).orch.peerConfigs
      api.history log := by
  have executes : ((run (step AssocTrie) sampleActions (new sampleOrch [relay])).map fun api =>
      api.history.length) =
      some 6 := by decide +kernel
  obtain ⟨api, executed, length⟩ := Option.map_eq_some_iff.mp executes
  have reached : Reaches (step AssocTrie) (fun _ _ => True) (new sampleOrch [relay]) api :=
    reaches_of_run (fun _ _ _ => trivial) executed
  exact ⟨api, executed, length, management_linearizable reached⟩

end Management
end H3llo.Api
