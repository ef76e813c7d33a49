import H3llo.Actor.Exits
import H3llo.Orch.System

/-! The run of the orchestrator as the owner of every actor.

The bus reports exits to the mailbox of the orchestrator, between the messages of the
other actors. Its run handles one message after the other and is over with the first
critical exit, with a stop or with a signal; after that nothing more is done.
-/

set_option autoImplicit false

namespace H3llo.Actor.ActorBus

variable {Id : Type} [DecidableEq Id] {bus next : ActorBus Id} {action : Action Id}

omit [DecidableEq Id] in
theorem Changes.records {id : Id} {actor : ActorState Id} {registrations : List Id}
    {sent : List (Sent Id)} (changes : Changes bus id action actor registrations sent) :
    ∀ one ∈ sent, one.delivered = (bus.actors one.target).inboxOpen ∧ ∃ id,
    one.sender = .monitor id := by
  cases changes with
  | stopped stopping =>
    intro one member
    rw [List.mem_singleton.mp member]
    exact ⟨rfl, id, rfl⟩
  | notified exiting ended =>
    intro one member
    rw [List.mem_singleton.mp member]
    exact ⟨rfl, id, rfl⟩
  | _ => exact nofun

/-- A message is delivered if the inbox is open, and what is not a stop comes from a monitor. -/
theorem Moves.records (moves : Moves bus next action) :
    ∃ more, next.sends = bus.sends ++ more ∧ ∀ sent ∈ more,
    sent.delivered = (bus.actors sent.target).inboxOpen ∧
      (sent.event ≠ .stop → ∃ id, sent.sender = .monitor id) := by
  cases moves with
  | acts changes actors calls sends =>
    exact ⟨_, sends, fun sent member =>
      ⟨(changes.records sent member).1, fun _ => (changes.records sent member).2⟩⟩
  | calls actors registrations calls sends => exact ⟨[], by rw [sends, List.append_nil], nofun⟩
  | links current completes isOpen actors registrations calls sends =>
    exact ⟨[], by rw [sends, List.append_nil], nofun⟩
  | misses current closed actors registrations calls sends =>
    exact ⟨[], by rw [sends, List.append_nil], nofun⟩
  | halts current completes actors registrations calls sends =>
    refine ⟨_, sends, fun sent member => ?_⟩
    rw [List.mem_singleton.mp member]
    exact ⟨rfl, fun other => absurd rfl other⟩

theorem Moves.inboxOpen {id : Id} (moves : Moves bus next action)
    (isOpen : (bus.actors id).inboxOpen = true) (kept : action ≠ .dropInbox id) :
    (next.actors id).inboxOpen = true := by
  obtain same | ⟨actor, registrations, sent, is, changes, -⟩ := moves.actor id
  · rwa [same]
  · rw [is]
    cases changes with
    | dropped => exact absurd rfl kept
    | _ => exact isOpen

theorem Moves.identity (moves : Moves bus next action) (id : Id)
    (spawned : (bus.actors id).stage ≠ .absent) :
    (next.actors id).stage ≠ .absent ∧ (next.actors id).owner = (bus.actors id).owner ∧
      (next.actors id).policy = (bus.actors id).policy := by
  obtain same | ⟨actor, registrations, sent, is, changes, -⟩ := moves.actor id
  · rw [same]
    exact ⟨spawned, rfl, rfl⟩
  · rw [is]
    cases changes with
    | spawned unused | opened unused => exact absurd unused spawned
    | ended | dropped | pushed => exact ⟨spawned, rfl, rfl⟩
    | _ => exact ⟨nofun, rfl, rfl⟩

/-- The report of an actor is the only one that its monitor sends. -/
theorem report_of_sent {id : Id} {sent : Sent Id} {exit : ActorExit} (sound : Sound bus)
    (member : sent ∈ bus.sends) (sender : sent.sender = .monitor id)
    (event : sent.event = .actorExited exit) :
    (bus.actors id).stage = .finished ∧ sent.target = (bus.actors id).owner ∧
      exit.name = (bus.actors id).name ∧ exit.policy = (bus.actors id).policy ∧
      (bus.actors id).result = some exit.result := by
  have exits : isExitOf id sent = true := by simp [isExitOf, sender, event]
  have ledger := sound.ledger id
  split at ledger
  next finished =>
    obtain ⟨before, result, delivered, after, ended, sends, others, -⟩ := ledger
    rw [sends] at member
    have is : sent = ⟨.monitor id, (bus.actors id).owner,
        .actorExited ⟨(bus.actors id).name, (bus.actors id).policy, result⟩, delivered⟩ := by
      rcases List.mem_append.mp member with early | late
      · have other := others sent (List.mem_append_left after early)
        rw [exits] at other
        cases other
      · rcases List.mem_cons.mp late with now | late
        · exact now
        · have other := others sent (List.mem_append_right before late)
          rw [exits] at other
          cases other
    rw [is] at event
    cases event
    exact ⟨finished, by rw [is], rfl, rfl, ended⟩
  next =>
    have unreported := ledger sent member
    rw [exits] at unreported
    cases unreported

end H3llo.Actor.ActorBus

namespace H3llo.Orch
open H3llo.Net H3llo.Runs H3llo.Router
open H3llo.Actor (ActorBus ActorExit TaskResult Sent)

structure RunError where
  context : String
  source : Option String
  deriving DecidableEq, Repr

inductive Outcome where
  | stopped
  | failed (error : RunError)
  deriving DecidableEq, Repr

def policyOf : Actor.SupervisionPolicy → SupervisionPolicy
  | .critical => .critical
  | .restartable => .restartable
  | .detached => .detached

/-- The error that `handle_actor_exit` makes of a critical exit. -/
def criticalError (name : String) : TaskResult → RunError
  | .returned (some failure) => ⟨"critical actor `" ++ name ++ "` failed", some failure⟩
  | .returned none => ⟨"critical actor `" ++ name ++ "` exited unexpectedly", none⟩
  | .joinFailed reason => ⟨"join critical actor `" ++ name ++ "`", some reason⟩

theorem criticalError_names (name : String) (result : TaskResult) :
    ∃ before after, (criticalError name result).context = before ++ name ++ after := by
  cases result with
  | returned failure =>
    cases failure with
    | none => exact ⟨_, _, rfl⟩
    | some failure => exact ⟨_, _, rfl⟩
  | joinFailed reason => exact ⟨_, _, rfl⟩

inductive Message where
  | stop
  | exited (exit : ActorExit)
  | event (event : Event)

def Message.ofBus : Actor.Event → Message
  | .stop => .stop
  | .actorExited exit => .exited exit

def Message.exit? : Message → Option ActorExit
  | .exited exit => some exit
  | .stop | .event _ => none

def Message.isCritical : Message → Bool
  | .exited exit => exit.policy = .critical
  | .stop | .event _ => false

/-- `taken` are the exits that were handled, oldest first. -/
structure Supervised (Id : Type) where
  bus : ActorBus Id
  orch : Orchestrator
  inbox : List Message
  taken : List ActorExit
  outcome : Option Outcome

inductive RunAction (Id : Type) where
  | bus (action : Actor.Action Id)
  | deliver (event : Event)
  | receive (env : Env)
  | reconcile (env : Env)
  | signal

variable {Id : Type} [DecidableEq Id]

/-- What the mailbox of `root` was given. -/
def arrivals (root : Id) (sends : List (Sent Id)) : List Message :=
  sends.filterMap fun sent => if sent.target = root ∧ sent.delivered then
    some (.ofBus sent.event) else none

namespace Supervised

def start (orch : Orchestrator) : Supervised Id := ⟨.new, orch, [], [], none⟩

section Steps

variable (Trie : Type → Type) [PrefixTrie Trie] (root : Id)

omit [DecidableEq Id] in
/-- One message of the loop; the outcome is set where the loop is left. -/
def handle (sys : Supervised Id) (env : Env) : Message → Supervised Id
  | .stop => { sys with outcome := some .stopped }
  | .exited exit =>
      let sys := { sys with taken := sys.taken ++ [exit] }
      match (sys.orch.handleActorExit env (policyOf exit.policy) : Option (Reaction Trie)) with
      | none => { sys with outcome := some (.failed (criticalError exit.name exit.result)) }
      | some reaction => { sys with orch := reaction.orch }
  | .event event =>
      match (sys.orch.handleEvent env event : Option (Reaction Trie)) with
      | some reaction => { sys with orch := reaction.orch }
      -- Stops and exits do not come as other events.
      | none => sys

def step (action : RunAction Id) (sys : Supervised Id) : Option (Supervised Id) :=
  if sys.outcome.isSome then none
  else
    match action with
    | .bus action =>
        (ActorBus.step action sys.bus).map fun bus =>
          { sys with
            bus
            inbox := sys.inbox ++ arrivals root (bus.sends.drop sys.bus.sends.length) }
    | .deliver event =>
        match event with
        | .stop | .actorExited _ => none
        | event => some { sys with inbox := sys.inbox ++ [.event event] }
    | .receive env =>
        match sys.inbox with
        | [] => none
        | message :: rest => some ({ sys with inbox := rest }.handle Trie env message)
    | .reconcile env => some { sys with orch := (sys.orch.reconcile env : Reaction Trie).orch }
    | .signal => some { sys with outcome := some .stopped }

end Steps

/-- The orchestrator keeps its mailbox while it runs, and the bus is driven. -/
def Runs (root : Id) (sys : Supervised Id) : RunAction Id → Prop
  | .bus action => ActorBus.Driven sys.bus action ∧ action ≠ .dropInbox root
  | _ => True

instance (root : Id) (sys : Supervised Id) (action : RunAction Id) :
    Decidable (Runs root sys action) :=
  match action with
  | .bus action =>
      inferInstanceAs (Decidable (ActorBus.Driven sys.bus action ∧ action ≠ .dropInbox root))
  | .deliver _ | .receive _ | .reconcile _ | .signal => .isTrue trivial

/-! ## What a step can do -/

/-- What is left of a state beside the orchestrator's own. -/
inductive Moves (root : Id) (sys : Supervised Id) : RunAction Id → Supervised Id → Prop where
  | busMoves {action : Actor.Action Id} {next : Supervised Id} {more : List (Sent Id)}
      (moves : ActorBus.step action sys.bus = some next.bus)
      (sends : next.bus.sends = sys.bus.sends ++ more)
      (inbox : next.inbox = sys.inbox ++ arrivals root more) (taken : next.taken = sys.taken)
      (outcome : next.outcome = none) : Moves root sys (.bus action) next
  | idles {action : RunAction Id} {next : Supervised Id} (more : List Event)
      (other : ∀ env, action ≠ .receive env) (bus : next.bus = sys.bus)
      (inbox : next.inbox = sys.inbox ++ more.map .event) (taken : next.taken = sys.taken)
      (outcome : next.outcome = none) : Moves root sys action next
  | takes {env : Env} {event : Event} {next : Supervised Id}
      (first : sys.inbox = .event event :: next.inbox) (bus : next.bus = sys.bus)
      (taken : next.taken = sys.taken) (outcome : next.outcome = none) :
      Moves root sys (.receive env) next
  | survives {env : Env} {exit : ActorExit} {next : Supervised Id}
      (first : sys.inbox = .exited exit :: next.inbox) (harmless : exit.policy ≠ .critical)
      (bus : next.bus = sys.bus) (taken : next.taken = sys.taken ++ [exit])
      (outcome : next.outcome = none) : Moves root sys (.receive env) next
  | fails {env : Env} {exit : ActorExit} {next : Supervised Id}
      (first : sys.inbox = .exited exit :: next.inbox) (critical : exit.policy = .critical)
      (bus : next.bus = sys.bus) (taken : next.taken = sys.taken ++ [exit])
      (outcome : next.outcome = some (.failed (criticalError exit.name exit.result))) :
        Moves root sys (.receive env) next
  | stops {action : RunAction Id} {next : Supervised Id} (bus : next.bus = sys.bus)
      (asked : action = .signal ∧ next.inbox = sys.inbox ∨ sys.inbox = .stop :: next.inbox)
      (taken : next.taken = sys.taken)
      (outcome : next.outcome = some .stopped) : Moves root sys action next

section Inversion

variable {Trie : Type → Type} [PrefixTrie Trie] {root : Id} {sys next : Supervised Id}
  {action : RunAction Id}

theorem moves_of_handle {env : Env} {message : Message} {rest : List Message}
    (running : sys.outcome = none) (first : sys.inbox = message :: rest) :
    Moves root sys (.receive env) ({ sys with inbox := rest }.handle Trie env message) := by
  cases message with
  | stop => exact .stops rfl (.inr first) rfl rfl
  | exited exit =>
    cases policy : exit.policy with
    | critical =>
      have eq : { sys with inbox := rest }.handle Trie env (.exited exit) =
          { sys with inbox := rest, taken := sys.taken ++ [exit],
                     outcome := some (.failed (criticalError exit.name exit.result)) } := by
        simp only [handle, policy, policyOf, Orchestrator.handleActorExit]
      rw [eq]
      exact .fails first policy rfl rfl rfl
    | restartable =>
      have eq : { sys with inbox := rest }.handle Trie env (.exited exit) =
          { sys with
            inbox := rest
            taken := sys.taken ++ [exit]
            orch := (sys.orch.reconcile env : Reaction Trie).orch } := by
        simp only [handle, policy, policyOf, Orchestrator.handleActorExit]
      rw [eq]
      exact .survives first (by simp [policy]) rfl rfl running
    | detached =>
      have eq : { sys with inbox := rest }.handle Trie env (.exited exit) =
          { sys with inbox := rest, taken := sys.taken ++ [exit] } := by
        simp only [handle, policy, policyOf, Orchestrator.handleActorExit, Orchestrator.idle]
      rw [eq]
      exact .survives first (by simp [policy]) rfl rfl running
  | event event =>
    cases handled : (sys.orch.handleEvent env event : Option (Reaction Trie)) with
    | none =>
      have eq : { sys with inbox := rest }.handle Trie env (.event event) =
          { sys with inbox := rest } := by
        simp only [handle, handled]
      rw [eq]
      exact .takes first rfl rfl running
    | some reaction =>
      have eq : { sys with inbox := rest }.handle Trie env (.event event) =
          { sys with inbox := rest, orch := reaction.orch } := by
        simp only [handle, handled]
      rw [eq]
      exact .takes first rfl rfl running

theorem moves_of_step (taken : step Trie root action sys = some next) :
    sys.outcome = none ∧ Moves root sys action next := by
  unfold step at taken
  split at taken
  next => cases taken
  next alive =>
    have running : sys.outcome = none := by simpa using alive
    refine ⟨running, ?_⟩
    cases action with
    | bus action =>
      obtain ⟨bus, moved, made⟩ := Option.map_eq_some_iff.mp taken
      subst made
      obtain ⟨more, sends, -⟩ := (ActorBus.moves_of_step moved).records
      exact .busMoves moved sends (by simp [sends]) rfl running
    | deliver event =>
      -- Stops and exits reach the mailbox over the bus only.
      cases event with
      | stop => cases taken
      | actorExited policy => cases taken
      | _ =>
        cases taken
        exact .idles [_] nofun rfl rfl rfl running
    | receive env =>
      simp only at taken
      split at taken
      next => cases taken
      next message rest first =>
        cases taken
        exact moves_of_handle running first
    | reconcile env =>
      cases taken
      exact .idles [] nofun rfl (by simp) rfl running
    | signal =>
      cases taken
      exact .stops rfl (.inl ⟨rfl, rfl⟩) rfl rfl

theorem outcome_of_moves (moves : Moves root sys action next) :
    (∃ exit, next.taken = sys.taken ++ [exit] ∧ next.outcome =
      if exit.policy = .critical then some (.failed (criticalError exit.name exit.result))
        else none) ∨
    next.taken = sys.taken ∧ (next.outcome = none ∨
      next.outcome = some .stopped ∧ (action = .signal ∨ sys.inbox.head? = some .stop)) := by
  cases moves with
  | busMoves moved sends inbox taken outcome => exact .inr ⟨taken, .inl outcome⟩
  | idles more other bus inbox taken outcome => exact .inr ⟨taken, .inl outcome⟩
  | takes first bus taken outcome => exact .inr ⟨taken, .inl outcome⟩
  | @survives env exit _ first harmless bus taken outcome =>
    exact .inl ⟨exit, taken, by rw [if_neg harmless, outcome]⟩
  | @fails env exit _ first critical bus taken outcome =>
    exact .inl ⟨exit, taken, by rw [if_pos critical, outcome]⟩
  | stops bus asked taken outcome =>
    refine .inr ⟨taken, .inr ⟨outcome, asked.imp And.left fun first => ?_⟩⟩
    rw [first, List.head?_cons]

/-! ## Whole runs -/

def exits (messages : List Message) : List ActorExit := messages.filterMap Message.exit?

theorem exits_append (first second : List Message) :
    exits (first ++ second) = exits first ++ exits second :=
  List.filterMap_append ..

theorem exits_events (events : List Event) : exits (events.map Message.event) = [] := by
  induction events with
  | nil => rfl
  | cons event rest ih => exact ih

omit [DecidableEq Id] in
theorem mem_exits {messages : List Message} {exit : ActorExit} :
    exit ∈ exits messages ↔ .exited exit ∈ messages := by
  constructor
  · intro member
    obtain ⟨message, among, isExit⟩ := List.mem_filterMap.mp member
    cases message with
    | exited other =>
      cases isExit
      exact among
    | _ => cases isExit
  · exact fun member => List.mem_filterMap.mpr ⟨.exited exit, member, rfl⟩

structure Sound (root : Id) (sys : Supervised Id) : Prop where
  bus : ActorBus.Sound sys.bus
  isOpen : (sys.bus.actors root).inboxOpen = true
  records : ∀ sent ∈ sys.bus.sends, (sent.target = root → sent.delivered = true) ∧
    (sent.event ≠ .stop → ∃ id, sent.sender = .monitor id)
  /-- Every exit that the mailbox was given was taken or waits, in the order of arrival. -/
  accounted : exits (arrivals root sys.bus.sends) = sys.taken ++ exits sys.inbox
  deadly : ∀ exit ∈ sys.taken, exit.policy = .critical →
    sys.outcome = some (.failed (criticalError exit.name exit.result))
  blamed : ∀ error, sys.outcome = some (.failed error) → ∃ earlier exit,
    sys.taken = earlier ++ [exit] ∧
    (∀ other ∈ earlier, other.policy ≠ .critical) ∧ exit.policy = .critical ∧
      error = criticalError exit.name exit.result

theorem Sound.calm (sound : Sound root sys) (running : sys.outcome = none) :
    ∀ exit ∈ sys.taken, exit.policy ≠ .critical := fun exit member critical => by
  have failed := sound.deadly exit member critical
  rw [running] at failed
  cases failed

theorem sound_start (orch : Orchestrator) : Sound root (start orch : Supervised Id) where
  bus := ActorBus.sound_new
  isOpen := rfl
  records := nofun
  accounted := rfl
  deadly := nofun
  blamed := nofun

theorem sound_of_moves (sound : Sound root sys) (running : sys.outcome = none)
    (runs : Runs root sys action) (moves : Moves root sys action next) : Sound root next := by
  -- The run goes on, so that no exit before was critical.
  have calm (same : next.taken = sys.taken) (exit : ActorExit) (member : exit ∈ next.taken)
      (critical : exit.policy = .critical) :
      next.outcome = some (.failed (criticalError exit.name exit.result)) :=
    absurd critical (sound.calm running exit (same ▸ member))
  cases moves with
  | busMoves moved sends inbox taken outcome =>
    have busMoves := ActorBus.moves_of_step moved
    refine ⟨ActorBus.sound_step sound.bus runs.1 moved, busMoves.inboxOpen sound.isOpen runs.2, ?_,
      ?_, ?_, ?_⟩
    -- Nothing that goes to the mailbox is lost, since its inbox is open all the time.
    · obtain ⟨more, grown, records⟩ := busMoves.records
      intro sent member
      rw [grown] at member
      rcases List.mem_append.mp member with old | new
      · exact sound.records sent old
      · obtain ⟨delivered, sender⟩ := records sent new
        exact ⟨fun isRoot => by rw [delivered, isRoot, sound.isOpen], sender⟩
    · rw [sends, inbox, taken, arrivals, List.filterMap_append, exits_append, exits_append,
        ← List.append_assoc,
        ← sound.accounted]
      rfl
    · exact calm taken
    · rw [outcome]
      exact nofun
  | idles more other bus inbox taken outcome =>
    refine ⟨bus ▸ sound.bus, bus ▸ sound.isOpen, bus ▸ sound.records, ?_, ?_, ?_⟩
    · rw [bus, taken, inbox, sound.accounted, exits_append, exits_events, List.append_nil]
    · exact calm taken
    · rw [outcome]
      exact nofun
  | takes first bus taken outcome =>
    refine ⟨bus ▸ sound.bus, bus ▸ sound.isOpen, bus ▸ sound.records, ?_, ?_, ?_⟩
    · rw [bus, taken, sound.accounted, first]
      rfl
    · exact calm taken
    · rw [outcome]
      exact nofun
  | @survives env exit _ first harmless bus taken outcome =>
    refine ⟨bus ▸ sound.bus, bus ▸ sound.isOpen, bus ▸ sound.records, ?_, ?_, ?_⟩
    · rw [bus, taken, sound.accounted, first, List.append_assoc]
      rfl
    -- Exits taken before were harmless, or the run would have ended; so is this one.
    · intro other member critical
      rw [taken] at member
      rcases List.mem_append.mp member with earlier | last
      · exact absurd critical (sound.calm running other earlier)
      · rw [List.mem_singleton.mp last] at critical
        exact absurd critical harmless
    · rw [outcome]
      exact nofun
  | @fails env exit _ first critical bus taken outcome =>
    refine ⟨bus ▸ sound.bus, bus ▸ sound.isOpen, bus ▸ sound.records, ?_, ?_, ?_⟩
    · rw [bus, taken, sound.accounted, first, List.append_assoc]
      rfl
    -- Earlier ones were harmless, so that the error is about this one.
    · intro other member isCritical
      rw [taken] at member
      rcases List.mem_append.mp member with earlier | last
      · exact absurd isCritical (sound.calm running other earlier)
      · rw [outcome, List.mem_singleton.mp last]
    · intro error failed
      rw [outcome] at failed
      cases failed
      exact ⟨sys.taken, exit, taken, sound.calm running, critical, rfl⟩
  | stops bus asked taken outcome =>
    refine ⟨bus ▸ sound.bus, bus ▸ sound.isOpen, bus ▸ sound.records, ?_, ?_, ?_⟩
    · rcases asked with ⟨-, same⟩ | first
      · rw [bus, taken, same, sound.accounted]
      · rw [bus, taken, sound.accounted, first]
        rfl
    · exact calm taken
    · rw [outcome]
      exact nofun

theorem sound_of_reaches {orch : Orchestrator}
    (reached : Reaches (step Trie root) (Runs root) (start orch) sys) : Sound root sys :=
  reached.invariant (sound_start orch) fun _ _ _ sound runs taken =>
    sound_of_moves sound (moves_of_step taken).1 runs (moves_of_step taken).2

theorem actor_of_exit {exit : ActorExit} (sound : Sound root sys)
    (member : exit ∈ exits (arrivals root sys.bus.sends)) :
    ∃ id, (sys.bus.actors id).owner = root ∧ (sys.bus.actors id).stage = .finished ∧
      exit.name = (sys.bus.actors id).name ∧ exit.policy = (sys.bus.actors id).policy ∧
      (sys.bus.actors id).result = some exit.result := by
  obtain ⟨sent, recorded, given⟩ := List.mem_filterMap.mp (mem_exits.mp member)
  obtain ⟨⟨isRoot, -⟩, isExit⟩ := Option.ite_none_right_eq_some.mp given
  cases event : sent.event with
  | stop =>
    rw [event] at isExit
    cases isExit
  | actorExited other =>
    rw [event] at isExit
    cases isExit
    obtain ⟨id, sender⟩ := (sound.records sent recorded).2 (by simp [event])
    obtain ⟨finished, target, name, policy, result⟩ :=
      ActorBus.report_of_sent sound.bus recorded sender event
    exact ⟨id, target.symm.trans isRoot, finished, name, policy, result⟩

/-! ## A critical exit ends the run -/

structure Doomed (sys : Supervised Id) : Prop where
  running : sys.outcome = none
  critical : ∃ message ∈ sys.inbox, message.isCritical = true

def ahead (sys : Supervised Id) : Nat := sys.inbox.findIdx Message.isCritical

omit [DecidableEq Id] in
theorem ahead_append {more : List Message}
    (critical : ∃ message ∈ sys.inbox, message.isCritical = true)
    (inbox : next.inbox = sys.inbox ++ more) : next.ahead = sys.ahead := by
  rw [ahead, inbox, List.findIdx_append, if_pos (List.findIdx_lt_length.mpr critical)]
  rfl

omit [DecidableEq Id] in
theorem ahead_tail {message : Message} (first : sys.inbox = message :: next.inbox)
    (harmless : message.isCritical = false) : sys.ahead = next.ahead + 1 := by
  rw [ahead, first, List.findIdx_cons, harmless]
  rfl

theorem doomed_of_moves (moves : Moves root sys action next) (doomed : Doomed sys) :
    next.outcome ≠ none ∨ Doomed next ∧ next.ahead ≤ sys.ahead := by
  obtain ⟨running, message, member, critical⟩ := doomed
  have appended {more : List Message} (inbox : next.inbox = sys.inbox ++ more)
      (outcome : next.outcome = none) :
      next.outcome ≠ none ∨ Doomed next ∧ next.ahead ≤ sys.ahead := by
    refine .inr ⟨⟨outcome, message, by rw [inbox]; exact List.mem_append_left more member,
      critical⟩, ?_⟩
    exact (ahead_append ⟨message, member, critical⟩ inbox).le
  have dropped {first : Message} (inbox : sys.inbox = first :: next.inbox)
      (harmless : first.isCritical = false)
      (outcome : next.outcome = none) : next.outcome ≠ none ∨ Doomed next ∧
        next.ahead ≤ sys.ahead := by
    refine .inr
      ⟨⟨outcome, message, ?_, critical⟩, by rw [ahead_tail inbox harmless]; exact Nat.le_succ _⟩
    rw [inbox] at member
    rcases List.mem_cons.mp member with rfl | later
    · rw [harmless] at critical
      cases critical
    · exact later
  cases moves with
  | busMoves moved sends inbox taken outcome => exact appended inbox outcome
  | idles more other bus inbox taken outcome => exact appended inbox outcome
  | takes first bus taken outcome => exact dropped first rfl outcome
  | survives first harmless bus taken outcome =>
    exact dropped first (by simpa [Message.isCritical] using harmless) outcome
  | fails first isCritical bus taken outcome =>
    left
    rw [outcome]
    exact Option.some_ne_none _
  | stops bus inbox taken outcome =>
    left
    rw [outcome]
    exact Option.some_ne_none _

theorem receive_of_doomed (doomed : Doomed sys) (env : Env) :
    ∃ after, step Trie root (.receive env) sys = some after ∧
      (after.outcome ≠ none ∨ after.ahead < sys.ahead) := by
  obtain ⟨running, message, member, critical⟩ := doomed
  cases queue : sys.inbox with
  | nil => simp [queue] at member
  | cons first rest =>
    have taken : step Trie root (.receive env) sys =
        some ({ sys with inbox := rest }.handle Trie env first) := by
      simp [step, running, queue]
    refine ⟨_, taken, ?_⟩
    cases (moves_of_step taken).2 with
    | idles more other => exact absurd rfl (other env)
    | takes head bus exits outcome =>
      exact .inr (by rw [ahead_tail head rfl]; exact Nat.lt_succ_self _)
    | survives head harmless bus exits outcome =>
      have passes := ahead_tail head (by simpa [Message.isCritical] using harmless)
      exact .inr (by rw [passes]; exact Nat.lt_succ_self _)
    | fails head isCritical bus exits outcome =>
      exact .inl (by rw [outcome]; exact Option.some_ne_none _)
    | stops bus inbox exits outcome => exact .inl (by rw [outcome]; exact Option.some_ne_none _)

theorem doomed_of_finished {id : Id} (sound : Sound root sys) (running : sys.outcome = none)
    (finished : (sys.bus.actors id).stage = .finished) (owned : (sys.bus.actors id).owner = root)
    (critical : (sys.bus.actors id).policy = .critical) : Doomed sys := by
  have ledger := sound.bus.ledger id
  rw [if_pos finished] at ledger
  obtain ⟨before, result, delivered, after, ended, sends, -, -⟩ := ledger
  generalize isReport : Actor.Event.actorExited ⟨(sys.bus.actors id).name,
    (sys.bus.actors id).policy, result⟩ = event at sends
  have recorded : ⟨.monitor id, (sys.bus.actors id).owner, event, delivered⟩ ∈ sys.bus.sends := by
    simp [sends]
  have given : delivered = true := (sound.records _ recorded).1 owned
  have arrived : .ofBus event ∈ arrivals root sys.bus.sends :=
    List.mem_filterMap.mpr ⟨_, recorded, by simp [owned, given]⟩
  subst isReport
  have known := mem_exits.mpr arrived
  rw [sound.accounted] at known
  rcases List.mem_append.mp known with taken | waiting
  · exact absurd critical (sound.calm running _ taken)
  · exact ⟨running, _, mem_exits.mp waiting, by simpa [Message.isCritical] using critical⟩

theorem bus_of_moves (moves : Moves root sys action next) :
    next.bus = sys.bus ∨ ∃ busAction, action = .bus busAction ∧
      ActorBus.step busAction sys.bus = some next.bus := by
  cases moves with
  | busMoves moved => exact .inr ⟨_, rfl, moved⟩
  | idles more other bus => exact .inl bus
  | takes first bus => exact .inl bus
  | survives first harmless bus => exact .inl bus
  | fails first critical bus => exact .inl bus
  | stops bus => exact .inl bus

/-- The task of `id` has ended and its report is not sent yet. -/
def Reporting (id : Id) (sys : Supervised Id) : Prop :=
  sys.outcome = none ∧ ActorBus.Waits id sys.bus

def Settles (id : Id) (sys : Supervised Id) : Prop :=
  sys.outcome ≠ none ∨ (sys.bus.actors id).stage = .finished

theorem reporting_of_moves {id : Id} (moves : Moves root sys action next)
    (reporting : Reporting id sys) :
    Settles id next ∨ Reporting id next ∧ ActorBus.distance id next.bus ≤
      ActorBus.distance id sys.bus := by
  by_cases running : next.outcome = none
  · rcases bus_of_moves moves with same | ⟨busAction, -, moved⟩
    · rw [Reporting, same]
      exact .inr ⟨⟨running, reporting.2⟩, le_refl _⟩
    · rcases ActorBus.waits_step (ActorBus.moves_of_step moved) reporting.2 with
        finished | ⟨waits, nearer⟩
      · exact .inl (.inr finished)
      · exact .inr ⟨⟨running, waits⟩, nearer⟩
  · exact .inl (.inl running)

theorem supervision_of_reporting {id : Id} (reporting : Reporting id sys) :
    ∃ after, step Trie root (.bus (ActorBus.supervision id sys.bus)) sys = some after ∧
      (Settles id after ∨ ActorBus.distance id after.bus < ActorBus.distance id sys.bus) := by
  obtain ⟨bus, moved, nearer⟩ := ActorBus.supervision_step reporting.2
  refine ⟨
    { sys with
      bus
      inbox := sys.inbox ++ arrivals root (bus.sends.drop sys.bus.sends.length) }, ?_, ?_⟩
  · simp [step, reporting.1, moved]
  · exact nearer.imp_left .inr

/-- The actor `id` was spawned as a critical one of this owner. -/
structure Relied (root id : Id) (sys : Supervised Id) : Prop where
  spawned : (sys.bus.actors id).stage ≠ .absent
  owned : (sys.bus.actors id).owner = root
  critical : (sys.bus.actors id).policy = .critical

theorem relied_of_moves {id : Id} (moves : Moves root sys action next)
    (relied : Relied root id sys) : Relied root id next := by
  rcases bus_of_moves moves with same | ⟨busAction, -, moved⟩
  · exact ⟨same ▸ relied.spawned, same ▸ relied.owned, same ▸ relied.critical⟩
  · obtain ⟨spawned, owner, policy⟩ := (ActorBus.moves_of_step moved).identity id relied.spawned
    exact ⟨spawned, owner.trans relied.owned, policy.trans relied.critical⟩

theorem over_eventually {id : Id} {states : Nat → Supervised Id} {env : Supervised Id → Env}
    (sound : Sound root (states 0)) (traces : Traces (step Trie root) (Runs root) states)
    (busFair : Fair (step Trie root) (fun sys => .bus (ActorBus.supervision id sys.bus)) states)
    (loopFair : Fair (step Trie root) (fun sys => .receive (env sys)) states)
    (waits : ActorBus.Waits id (states 0).bus) (relied : Relied root id (states 0)) :
    ∃ n, (states n).outcome ≠ none := by
  by_cases running : (states 0).outcome = none
  case neg => exact ⟨0, running⟩
  have settles : ∃ n, Settles id (states n) :=
    traces.eventually busFair (fun _ _ _ reporting _ taken =>
      reporting_of_moves (moves_of_step taken).2 reporting)
      (fun _ reporting => supervision_of_reporting reporting) ⟨running, waits⟩
  obtain ⟨n, ended | finished⟩ := settles
  · exact ⟨n, ended⟩
  · by_cases alive : (states n).outcome = none
    · have later : Sound root (states n) :=
        (traces.reaches n).invariant sound fun _ _ _ sound runs taken =>
        sound_of_moves sound (moves_of_step taken).1 runs (moves_of_step taken).2
      have still : Relied root id (states n) :=
        (traces.reaches n).invariant relied fun _ _ _ relied _ taken =>
        relied_of_moves (moves_of_step taken).2 relied
      have doomed := doomed_of_finished later alive finished still.owned still.critical
      exact traces.eventually loopFair (fun _ _ _ doomed _ taken =>
        doomed_of_moves (moves_of_step taken).2 doomed)
        (fun _ doomed => receive_of_doomed doomed _) doomed
    · exact ⟨n, alive⟩

/-- The exits that the mailbox is given are taken one after the other. A critical one ends the run
with an error that names the actor, any other leaves it running, and without one only a stop or a
signal ends it. As long as the bus and the loop are scheduled, the end of a critical task is
followed by the end of the run. -/
theorem critical_exit_ends_run {orch : Orchestrator}
    (reached : Reaches (step Trie root) (Runs root) (start orch) sys) :
    exits (arrivals root sys.bus.sends) = sys.taken ++ exits sys.inbox ∧
    (∀ action next, step Trie root action sys = some next →
      (∃ exit, next.taken = sys.taken ++ [exit] ∧ next.outcome =
        if exit.policy = .critical then some (.failed (criticalError exit.name exit.result))
          else none) ∨
      next.taken = sys.taken ∧ (next.outcome = none ∨
        next.outcome = some .stopped ∧ (action = .signal ∨ sys.inbox.head? = some .stop))) ∧
    (∀ exit ∈ sys.taken, exit.policy = .critical →
      sys.outcome = some (.failed (criticalError exit.name exit.result))) ∧
    (∀ error, sys.outcome = some (.failed error) → ∃ earlier exit id,
      sys.taken = earlier ++ [exit] ∧
      (∀ other ∈ earlier, other.policy ≠ .critical) ∧ Relied root id sys ∧
      (sys.bus.actors id).result = some exit.result ∧
      error = criticalError (sys.bus.actors id).name exit.result ∧
      ∃ before after, error.context = before ++ (sys.bus.actors id).name ++ after) ∧
    ∀ (states : Nat → Supervised Id) (env : Supervised Id → Env) (id : Id),
      Traces (step Trie root) (Runs root) states → states 0 = sys →
      Fair (step Trie root) (fun sys => .bus (ActorBus.supervision id sys.bus)) states →
      Fair (step Trie root) (fun sys => .receive (env sys)) states →
      Relied root id sys → (sys.bus.actors id).stage.isSupervised = true →
      (sys.bus.actors id).result ≠ none →
      ∃ n, (states n).outcome ≠ none := by
  have sound := sound_of_reaches reached
  refine ⟨sound.accounted, fun action next taken => outcome_of_moves (moves_of_step taken).2,
    sound.deadly,
    fun error failed => ?_, ?_⟩
  · obtain ⟨earlier, exit, taken, calm, critical, rfl⟩ := sound.blamed error failed
    have known : exit ∈ exits (arrivals root sys.bus.sends) := by simp [sound.accounted, taken]
    obtain ⟨id, owned, finished, name, policy, result⟩ := actor_of_exit sound known
    have relied : Relied root id sys := ⟨by simp [finished], owned, policy.symm.trans critical⟩
    rw [name]
    exact ⟨earlier, exit, id, taken, calm, relied, result, rfl, criticalError_names _ _⟩
  · rintro states env id traces rfl busFair loopFair relied supervised ended
    exact over_eventually sound traces busFair loopFair ⟨sound.bus.queued, supervised, ended⟩ relied

end Inversion

def sampleEnv : Env := ⟨0, fun _ => false, []⟩

def sampleRun : List (RunAction Nat) :=
  [.bus (.mailbox 0 "orchestrator"), .bus (.spawn 1 0 "bare-tx[relay]" .restartable),
    .bus (.register 1),
   .bus (.spawn 2 0 "h3-dispatcher" .critical), .bus (.register 2),
     .bus (.finish 1 (.returned none)), .bus .drive,
   .bus (.close 1), .bus (.receive 1), .bus (.notify 1), .bus .drive,
   .bus (.finish 2 (.returned (some "UDP RX actor channel closed")))]

def sampleEnd : List (RunAction Nat) :=
  [.bus (.close 2), .receive sampleEnv, .bus (.receive 2), .bus (.notify 2), .receive sampleEnv]

theorem critical_exit_ends_run_sample :
    ∃ states : Nat → Supervised Nat, Traces (step AssocTrie 0) (Runs 0) states ∧
      Reaches (step AssocTrie 0) (Runs 0) (start System.sampleOrch) (states 0) ∧
      (∃ n, (states n).outcome ≠ none) ∧
      ∃ earlier exit id, (states 5).taken = earlier ++ [exit] ∧
        ((states 5).bus.actors id).result = some exit.result ∧
        criticalError ((states 5).bus.actors id).name exit.result =
          ⟨"critical actor `h3-dispatcher` failed", some "UDP RX actor channel closed"⟩ := by
  have ran : (run (guarded (step AssocTrie 0) (Runs 0)) sampleRun (start System.sampleOrch)).any
      (fun sys =>
      decide (((sys.bus.actors 2).stage ≠ .absent ∧ (sys.bus.actors 2).owner = 0 ∧
        (sys.bus.actors 2).policy = .critical) ∧
        (sys.bus.actors 2).stage.isSupervised = true ∧ (sys.bus.actors 2).result ≠ none ∧
        (run (guarded (step AssocTrie 0) (Runs 0)) sampleEnd sys).any (fun last =>
          decide (last.outcome = some (.failed
            ⟨"critical actor `h3-dispatcher` failed", some "UDP RX actor channel closed"⟩))) =
              true)) = true := by
    decide +kernel
  obtain ⟨sys, executed, checked⟩ := (Option.any_eq_true ..).mp ran
  obtain ⟨⟨spawned, owned, critical⟩, supervised, ended, checked⟩ := of_decide_eq_true checked
  obtain ⟨last, completed, checked⟩ := (Option.any_eq_true ..).mp checked
  have failed := of_decide_eq_true checked
  have reached := reaches_of_guarded_run executed
  have start : along (guarded (step AssocTrie 0) (Runs 0)) sampleEnd sys 0 = sys :=
    along_zero sampleEnd sys
  have rests : along (guarded (step AssocTrie 0) (Runs 0)) sampleEnd sys 5 = last :=
    along_of_run completed (le_refl 5)
  have stopped (action : RunAction Nat) : step AssocTrie 0 action last = none := by
    simp [step, failed]
  have traces : Traces (step AssocTrie 0) (Runs 0)
      (along (guarded (step AssocTrie 0) (Runs 0)) sampleEnd sys) :=
    traces_along sampleEnd sys
  have ends := (critical_exit_ends_run reached).2.2.2.2 _ (fun _ => sampleEnv) 2 traces start
    (fair_along completed (stopped _))
    (fair_along completed (stopped _)) ⟨spawned, owned, critical⟩ supervised ended
  obtain ⟨earlier, exit, id, taken, -, -, result, named, -⟩ :=
    (critical_exit_ends_run (reached.trans (reaches_of_guarded_run completed))).2.2.2.1 _ failed
  exact ⟨_, traces, by rw [start]; exact reached, ends, earlier, exit,
    id, by rw [rests]; exact taken,
    by rw [rests]; exact result, by rw [rests]; exact named.symm⟩

end Supervised
end H3llo.Orch
