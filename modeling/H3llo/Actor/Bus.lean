import H3llo.Basis.Runs
import Mathlib.Logic.Function.Basic

/-! Actors, their links and the bus that supervises them.

Every operation on a channel is a step of its own. Spawning starts the task and then sends
the registration; the bus turns a registration into a monitor, which waits for the task,
closes the links channel, stops the linked actors one by one and then reports the exit.
Receiving from an inbox is not modelled: what was put into it stays on record.
-/

set_option autoImplicit false

namespace H3llo.Actor
open H3llo.Runs

inductive SupervisionPolicy where
  | critical | restartable | detached
  deriving DecidableEq, Repr

/-- What awaiting a task gives. -/
inductive TaskResult where
  | returned (failure : Option String)
  | joinFailed (reason : String)
  deriving DecidableEq, Repr

structure ActorExit where
  name : String
  policy : SupervisionPolicy
  result : TaskResult
  deriving DecidableEq, Repr

inductive Event where
  | stop
  | actorExited (exit : ActorExit)
  deriving DecidableEq, Repr

/-- Where the links receiver of an actor is: with the spawning code, in the registration
queue, with the monitor, or dropped. -/
inductive Stage (Id : Type) where
  | absent
  | starting
  | registered
  | awaiting
  | draining
  | stopping (linked : Id)
  | exiting
  | finished
  | refused
  | mailbox
  deriving DecidableEq, Repr

/-- `links` is the queue of the links channel and `linked` all it ever took. -/
structure ActorState (Id : Type) where
  name : String
  policy : SupervisionPolicy
  owner : Id
  stage : Stage Id
  links : List Id
  linked : List Id
  inboxOpen : Bool
  result : Option TaskResult
  deriving DecidableEq, Repr

/-- Next operation of a call to `link`. -/
inductive LinkPoint where
  | linkOther | stopOther | linkBack | stopSelf | returned
  deriving DecidableEq, Repr

def LinkPoint.isHalfway : LinkPoint → Bool
  | .linkOther | .stopOther => false
  | .linkBack | .stopSelf | .returned => true

structure LinkCall (Id : Type) where
  self : Id
  other : Id
  point : LinkPoint
  deriving DecidableEq, Repr

inductive Sender (Id : Type) where
  | monitor (id : Id)
  | linkCall
  deriving DecidableEq, Repr

structure Sent (Id : Type) where
  sender : Sender Id
  target : Id
  event : Event
  delivered : Bool
  deriving DecidableEq, Repr

structure ActorBus (Id : Type) where
  actors : Id → ActorState Id
  registrations : List Id
  calls : List (LinkCall Id)
  sends : List (Sent Id)

inductive Action (Id : Type) where
  | spawn (id owner : Id) (name : String) (policy : SupervisionPolicy)
  | mailbox (id : Id) (name : String)
  | register (id : Id)
  | refuse (id : Id)
  | finish (id : Id) (result : TaskResult)
  | dropInbox (id : Id)
  | drive
  | close (id : Id)
  | receive (id : Id)
  | stop (id : Id)
  | notify (id : Id)
  | link (self other : Id)
  | advance (index : Nat)
  deriving DecidableEq, Repr

def Stage.linksOpen {Id : Type} : Stage Id → Bool
  | .starting | .registered | .awaiting => true
  | _ => false

namespace ActorBus

variable {Id : Type}

def new : ActorBus Id where
  actors id := ⟨"", .detached, id, .absent, [], [], true, none⟩
  registrations := []
  calls := []
  sends := []

variable [DecidableEq Id]

def setActor (bus : ActorBus Id) (id : Id) (actor : ActorState Id) : ActorBus Id :=
  { bus with actors := Function.update bus.actors id actor }

def setStage (bus : ActorBus Id) (id : Id) (stage : Stage Id) : ActorBus Id :=
  bus.setActor id { bus.actors id with stage }

def send (bus : ActorBus Id) (sender : Sender Id) (target : Id) (event : Event) : ActorBus Id :=
  { bus with sends := bus.sends ++ [⟨sender, target, event, (bus.actors target).inboxOpen⟩] }

@[simp] theorem setActor_actors (bus : ActorBus Id) (id : Id) (actor : ActorState Id) :
    (bus.setActor id actor).actors = Function.update bus.actors id actor := rfl

@[simp] theorem setStage_actors (bus : ActorBus Id) (id : Id) (stage : Stage Id) :
    (bus.setStage id stage).actors = Function.update bus.actors id { bus.actors id with stage } :=
  rfl

omit [DecidableEq Id] in
@[simp] theorem send_actors (bus : ActorBus Id) (sender : Sender Id) (target : Id) (event : Event) :
    (bus.send sender target event).actors = bus.actors := rfl

def pushLink (bus : ActorBus Id) (id linked : Id) : ActorBus Id :=
  let actor := bus.actors id
  bus.setActor id
    { actor with links := actor.links ++ [linked], linked := actor.linked ++ [linked] }

def setPoint (bus : ActorBus Id) (index : Nat) (call : LinkCall Id)
    (point : LinkPoint) : ActorBus Id :=
  { bus with calls := bus.calls.set index { call with point } }

def advance (bus : ActorBus Id) (index : Nat) (call : LinkCall Id) : Option (ActorBus Id) :=
  match call.point with
  | .linkOther =>
      if (bus.actors call.self).stage.linksOpen then
        some ((bus.pushLink call.self call.other).setPoint index call .linkBack)
      else some (bus.setPoint index call .stopOther)
  | .stopOther => some ((bus.send .linkCall call.other .stop).setPoint index call .linkBack)
  | .linkBack =>
      if (bus.actors call.other).stage.linksOpen then
        some ((bus.pushLink call.other call.self).setPoint index call .returned)
      else some (bus.setPoint index call .stopSelf)
  | .stopSelf => some ((bus.send .linkCall call.self .stop).setPoint index call .returned)
  | .returned => none

def step (action : Action Id) (bus : ActorBus Id) : Option (ActorBus Id) :=
  match action with
  | .spawn id owner name policy =>
      if (bus.actors id).stage = .absent then
        some (bus.setActor id { bus.actors id with name, policy, owner, stage := .starting })
      else none
  | .mailbox id name =>
      if (bus.actors id).stage = .absent then
        some (bus.setActor id { bus.actors id with name, owner := id, stage := .mailbox })
      else none
  | .register id =>
      if (bus.actors id).stage = .starting then
        let bus := bus.setStage id .registered
        some { bus with registrations := bus.registrations ++ [id] }
      else none
  | .refuse id =>
      if (bus.actors id).stage = .starting then
        some (bus.setActor id { bus.actors id with stage := .refused, links := [] })
      else none
  | .finish id result =>
      if (bus.actors id).stage ≠ .absent ∧ (bus.actors id).stage ≠ .mailbox ∧
        (bus.actors id).result = none then
        some (bus.setActor id { bus.actors id with result := some result })
      else none
  -- The context may be dropped before the task ends, or be handed to something that outlives it.
  | .dropInbox id =>
      if (bus.actors id).stage ≠ .absent then
        some (bus.setActor id { bus.actors id with inboxOpen := false })
      else none
  | .drive =>
      match bus.registrations with
      | [] => none
      | id :: rest => some { bus.setStage id .awaiting with registrations := rest }
  | .close id =>
      if (bus.actors id).stage = .awaiting ∧ (bus.actors id).result ≠ none then
        some (bus.setStage id .draining)
      else none
  | .receive id =>
      if (bus.actors id).stage = .draining then
        match (bus.actors id).links with
        | [] => some (bus.setStage id .exiting)
        | linked :: rest =>
            some (bus.setActor id { bus.actors id with stage := .stopping linked, links := rest })
      else none
  | .stop id =>
      match (bus.actors id).stage with
      | .stopping linked => some ((bus.send (.monitor id) linked .stop).setStage id .draining)
      | _ => none
  | .notify id =>
      let actor := bus.actors id
      match actor.stage, actor.result with
      | .exiting, some result =>
          some
            ((bus.send (.monitor id) actor.owner
              (.actorExited ⟨actor.name, actor.policy, result⟩)).setStage id .finished)
      | _, _ => none
  | .link self other =>
      if (bus.actors self).stage ≠ .absent ∧ (bus.actors other).stage ≠ .absent then
        some { bus with calls := bus.calls ++ [⟨self, other, .linkOther⟩] }
      else none
  | .advance index => bus.calls[index]?.bind fun call => bus.advance index call

/-! ## What a step can do -/

/-- What a step does to the actor `id`, what it leaves in the registration queue and what it sends.
-/
inductive Changes (bus : ActorBus Id) (id : Id) :
    Action Id → ActorState Id → List Id → List (Sent Id) → Prop where
  | spawned {owner : Id} {name : String} {policy : SupervisionPolicy}
      (unused : (bus.actors id).stage = .absent) :
      Changes bus id (.spawn id owner name policy)
        { bus.actors id with name, policy, owner, stage := .starting } bus.registrations []
  | opened {name : String} (unused : (bus.actors id).stage = .absent) :
      Changes bus id (.mailbox id name)
        { bus.actors id with name, owner := id, stage := .mailbox } bus.registrations []
  | registered (unqueued : (bus.actors id).stage = .starting) :
      Changes bus id (.register id) { bus.actors id with stage := .registered }
        (bus.registrations ++ [id]) []
  | refused (unqueued : (bus.actors id).stage = .starting) :
      Changes bus id (.refuse id) { bus.actors id with stage := .refused, links := [] }
        bus.registrations []
  | ended {result : TaskResult} (running : (bus.actors id).result = none) :
      Changes bus id (.finish id result) { bus.actors id with result := some result }
        bus.registrations []
  | dropped : Changes bus id (.dropInbox id) { bus.actors id with inboxOpen := false }
      bus.registrations []
  | monitored {rest : List Id} (waiting : bus.registrations = id :: rest) :
      Changes bus id .drive { bus.actors id with stage := .awaiting } rest []
  | closed (awaited : (bus.actors id).stage = .awaiting) (ended : (bus.actors id).result ≠ none) :
      Changes bus id (.close id) { bus.actors id with stage := .draining } bus.registrations []
  | received {linked : Id} {rest : List Id} (draining : (bus.actors id).stage = .draining)
      (waiting : (bus.actors id).links = linked :: rest) :
      Changes bus id (.receive id) { bus.actors id with stage := .stopping linked, links := rest }
        bus.registrations []
  | drained (draining : (bus.actors id).stage = .draining) (empty : (bus.actors id).links = []) :
      Changes bus id (.receive id) { bus.actors id with stage := .exiting } bus.registrations []
  | stopped {linked : Id} (stopping : (bus.actors id).stage = .stopping linked) :
      Changes bus id (.stop id) { bus.actors id with stage := .draining } bus.registrations
        [⟨.monitor id, linked, .stop, (bus.actors linked).inboxOpen⟩]
  | notified {result : TaskResult} (exiting : (bus.actors id).stage = .exiting)
      (ended : (bus.actors id).result = some result) :
      Changes bus id (.notify id) { bus.actors id with stage := .finished } bus.registrations
        [⟨.monitor id, (bus.actors id).owner,
          .actorExited ⟨(bus.actors id).name, (bus.actors id).policy, result⟩,
          (bus.actors (bus.actors id).owner).inboxOpen⟩]
  | pushed {index : Nat} {linked : Id} (isOpen : (bus.actors id).stage.linksOpen = true) :
      Changes bus id (.advance index)
        { bus.actors id with
          links := (bus.actors id).links ++ [linked]
          linked := (bus.actors id).linked ++ [linked] }
        bus.registrations []

/-- The call moves on without an effect of its own. -/
def Misses (bus : ActorBus Id) (call : LinkCall Id) : LinkPoint → Prop
  | .stopOther => call.point = .linkOther ∧ (bus.actors call.self).stage.linksOpen = false
  | .stopSelf => call.point = .linkBack ∧ (bus.actors call.other).stage.linksOpen = false
  | _ => False

/-- The call hands the reference `linked` over to `id`, or stops `linked` in its place. -/
def Completes (call : LinkCall Id) (id linked : Id) (point : LinkPoint) : Prop :=
  id = call.self ∧ linked = call.other ∧ point = .linkBack ∨
    id = call.other ∧ linked = call.self ∧ point = .returned ∧ call.point.isHalfway = true

/-- Everything that a step can do. -/
inductive Moves (bus next : ActorBus Id) : Action Id → Prop where
  | acts {action : Action Id} {id : Id} {actor : ActorState Id} {sent : List (Sent Id)}
      (changes : Changes bus id action actor next.registrations sent)
      (actors : next.actors = Function.update bus.actors id actor) (calls : next.calls = bus.calls)
      (sends : next.sends = bus.sends ++ sent) : Moves bus next action
  | calls {self other : Id} (actors : next.actors = bus.actors)
      (registrations : next.registrations = bus.registrations)
      (calls : next.calls = bus.calls ++ [⟨self, other, .linkOther⟩])
      (sends : next.sends = bus.sends) :
      Moves bus next (.link self other)
  | links {index : Nat} {call : LinkCall Id} {id linked : Id} {point : LinkPoint}
      (current : call ∈ bus.calls) (completes : Completes call id linked point)
      (isOpen : (bus.actors id).stage.linksOpen = true)
      (actors : next.actors = Function.update bus.actors id
        { bus.actors id with
          links := (bus.actors id).links ++ [linked]
          linked := (bus.actors id).linked ++ [linked] })
      (registrations : next.registrations = bus.registrations)
      (calls : next.calls = bus.calls.set index { call with point })
      (sends : next.sends = bus.sends) :
      Moves bus next (.advance index)
  | misses {index : Nat} {call : LinkCall Id} {point : LinkPoint} (current : call ∈ bus.calls)
      (closed : Misses bus call point) (actors : next.actors = bus.actors)
      (registrations : next.registrations = bus.registrations)
      (calls : next.calls = bus.calls.set index { call with point })
      (sends : next.sends = bus.sends) :
      Moves bus next (.advance index)
  | halts {index : Nat} {call : LinkCall Id} {id linked : Id} {point : LinkPoint}
      (current : call ∈ bus.calls) (completes : Completes call id linked point)
      (actors : next.actors = bus.actors) (registrations : next.registrations = bus.registrations)
      (calls : next.calls = bus.calls.set index { call with point })
      (sends : next.sends = bus.sends ++
        [⟨.linkCall, linked, .stop, (bus.actors linked).inboxOpen⟩]) :
      Moves bus next (.advance index)

theorem moves_of_advance {bus next : ActorBus Id} {index : Nat} {call : LinkCall Id}
    (current : call ∈ bus.calls) (taken : bus.advance index call = some next) :
    Moves bus next (.advance index) := by
  unfold advance at taken
  cases point : call.point with
  | linkOther =>
    simp only [point] at taken
    split at taken <;> cases taken
    next isOpen => exact .links current (.inl ⟨rfl, rfl, rfl⟩) isOpen rfl rfl rfl rfl
    next isClosed =>
      have missed : Misses bus call .stopOther := ⟨point, by simpa using isClosed⟩
      exact .misses current missed rfl rfl rfl rfl
  | stopOther =>
    simp only [point] at taken
    cases taken
    exact .halts current (.inl ⟨rfl, rfl, rfl⟩) rfl rfl rfl rfl
  | linkBack =>
    simp only [point] at taken
    split at taken <;> cases taken
    next isOpen =>
      exact .links current (.inr ⟨rfl, rfl, rfl, by rw [point]; rfl⟩) isOpen rfl rfl rfl rfl
    next isClosed =>
      have missed : Misses bus call .stopSelf := ⟨point, by simpa using isClosed⟩
      exact .misses current missed rfl rfl rfl rfl
  | stopSelf =>
    simp only [point] at taken
    cases taken
    exact .halts current (.inr ⟨rfl, rfl, rfl, by rw [point]; rfl⟩) rfl rfl rfl rfl
  | returned =>
    simp only [point] at taken
    cases taken

theorem moves_of_step {bus next : ActorBus Id} {action : Action Id}
    (taken : step action bus = some next) : Moves bus next action := by
  have silent : bus.sends = bus.sends ++ [] := (List.append_nil _).symm
  cases action with
  | spawn id owner name policy =>
    simp only [step] at taken
    split at taken <;> cases taken
    next unused => exact .acts (.spawned unused) rfl rfl silent
  | mailbox id name =>
    simp only [step] at taken
    split at taken <;> cases taken
    next unused => exact .acts (.opened unused) rfl rfl silent
  | register id =>
    simp only [step] at taken
    split at taken <;> cases taken
    next unqueued => exact .acts (.registered unqueued) rfl rfl silent
  | refuse id =>
    simp only [step] at taken
    split at taken <;> cases taken
    next unqueued => exact .acts (.refused unqueued) rfl rfl silent
  | finish id result =>
    simp only [step] at taken
    split at taken <;> cases taken
    next running => exact .acts (.ended running.2.2) rfl rfl silent
  | dropInbox id =>
    simp only [step] at taken
    split at taken <;> cases taken
    exact .acts .dropped rfl rfl silent
  | drive =>
    simp only [step] at taken
    split at taken <;> cases taken
    next id rest waiting => exact .acts (.monitored waiting) rfl rfl silent
  | close id =>
    simp only [step] at taken
    split at taken <;> cases taken
    next ended => exact .acts (.closed ended.1 ended.2) rfl rfl silent
  | receive id =>
    simp only [step] at taken
    split at taken
    next draining =>
      split at taken <;> cases taken
      next empty => exact .acts (.drained draining empty) rfl rfl silent
      next linked rest waiting => exact .acts (.received draining waiting) rfl rfl silent
    next => cases taken
  | stop id =>
    simp only [step] at taken
    split at taken <;> cases taken
    next linked stopping => exact .acts (.stopped stopping) rfl rfl rfl
  | notify id =>
    simp only [step] at taken
    split at taken <;> cases taken
    next result exiting ended => exact .acts (.notified exiting ended) rfl rfl rfl
  | link self other =>
    simp only [step] at taken
    split at taken <;> cases taken
    exact .calls rfl rfl rfl rfl
  | advance index =>
    obtain ⟨call, found, moved⟩ := Option.bind_eq_some_iff.mp taken
    exact moves_of_advance (List.mem_of_getElem? found) moved

theorem Moves.actor {bus next : ActorBus Id} {action : Action Id} (moves : Moves bus next action)
    (id : Id) :
    next.actors id = bus.actors id ∨
      ∃ actor registrations sent, next.actors id = actor ∧
        Changes bus id action actor registrations sent ∧
        next.sends = bus.sends ++ sent := by
  cases moves with
  | @acts _ target actor sent changes actors calls sends =>
    by_cases same : id = target
    · subst same
      exact .inr ⟨actor, next.registrations, sent, by rw [actors, Function.update_self],
        changes, sends⟩
    · exact .inl (by rw [actors, Function.update_of_ne same])
  | @links index call target linked point current completes isOpen actors registrations
    calls sends =>
    by_cases same : id = target
    · subst same
      exact .inr ⟨_, _, [], by rw [actors, Function.update_self],
        .pushed isOpen, by rw [sends, List.append_nil]⟩
    · exact .inl (by rw [actors, Function.update_of_ne same])
  | calls actors => exact .inl (by rw [actors])
  | misses current closed actors => exact .inl (by rw [actors])
  | halts current completes actors => exact .inl (by rw [actors])

/-- The monitor of `id` sends a report. -/
def isExitOf (id : Id) (sent : Sent Id) : Bool :=
  decide (sent.sender = .monitor id ∧ sent.event ≠ .stop)

/-- What was sent stays on record, and only the notification step adds a report. -/
theorem Moves.sent {bus next : ActorBus Id} {action : Action Id} (moves : Moves bus next action)
    (id : Id) :
    ∃ more, next.sends = bus.sends ++ more ∧ ∀ sent ∈ more, isExitOf id sent = true →
      action = .notify id := by
  cases moves with
  | @acts _ target actor sent changes actors calls sends =>
    refine ⟨sent, sends, fun event member exits => ?_⟩
    generalize next.registrations = registrations at changes
    cases changes with
    | stopped stopping =>
      rw [List.mem_singleton.mp member] at exits
      simp [isExitOf] at exits
    | notified exiting ended =>
      rw [List.mem_singleton.mp member] at exits
      simp only [isExitOf, decide_eq_true_eq, Sender.monitor.injEq] at exits
      rw [exits.1]
    | _ => cases member
  | calls actors registrations calls sends => exact ⟨[], by rw [sends, List.append_nil], nofun⟩
  | links current completes isOpen actors registrations calls sends =>
    exact ⟨[], by rw [sends, List.append_nil], nofun⟩
  | misses current closed actors registrations calls sends =>
    exact ⟨[], by rw [sends, List.append_nil], nofun⟩
  | halts current completes actors registrations calls sends =>
    refine ⟨_, sends, fun event member exits => ?_⟩
    rw [List.mem_singleton.mp member] at exits
    simp [isExitOf] at exits

/-! ## The registration queue -/

structure Queued (bus : ActorBus Id) : Prop where
  distinct : bus.registrations.Nodup
  registered (id : Id) : id ∈ bus.registrations ↔ (bus.actors id).stage = .registered

omit [DecidableEq Id] in
theorem Queued.registered_head {bus : ActorBus Id} {id : Id} {rest : List Id} (queued : Queued bus)
    (waiting : bus.registrations = id :: rest) : (bus.actors id).stage = .registered := by
  rw [← queued.registered, waiting]
  exact List.mem_cons_self

omit [DecidableEq Id] in
theorem queued_new : Queued (new : ActorBus Id) := ⟨List.nodup_nil, fun id => by simp [new]⟩

omit [DecidableEq Id] in
theorem Queued.of_eq {bus next : ActorBus Id} (queued : Queued bus)
    (actors : next.actors = bus.actors)
    (registrations : next.registrations = bus.registrations) : Queued next :=
  ⟨registrations ▸ queued.distinct, fun id => by rw [registrations, actors, queued.registered]⟩

theorem Queued.of_update {bus next : ActorBus Id} {id : Id} {actor : ActorState Id}
    (queued : Queued bus) (actors : next.actors = Function.update bus.actors id actor)
    (registrations : bus.registrations = next.registrations)
    (same : (bus.actors id).stage = .registered ↔ actor.stage = .registered) : Queued next := by
  refine ⟨registrations ▸ queued.distinct, fun other => ?_⟩
  rw [← registrations, queued.registered, actors]
  by_cases isTarget : other = id
  · rw [isTarget, Function.update_self]
    exact same
  · rw [Function.update_of_ne isTarget]

theorem Queued.append {bus next : ActorBus Id} {id : Id} (queued : Queued bus)
    (unqueued : (bus.actors id).stage = .starting)
    (actors : next.actors = Function.update bus.actors id
      { bus.actors id with stage := .registered })
    (registrations : bus.registrations ++ [id] = next.registrations) : Queued next := by
  have unknown : id ∉ bus.registrations := by simp [queued.registered, unqueued]
  constructor
  · rw [← registrations, List.nodup_append]
    refine ⟨queued.distinct, List.pairwise_singleton _ id, fun first member second last => ?_⟩
    rw [List.mem_singleton.mp last]
    exact ne_of_mem_of_not_mem member unknown
  · intro other
    rw [← registrations, actors, List.mem_append, List.mem_singleton, queued.registered]
    by_cases isTarget : other = id
    · simp [isTarget]
    · simp [isTarget]

theorem Queued.tail {bus next : ActorBus Id} {id : Id} (queued : Queued bus)
    (waiting : bus.registrations = id :: next.registrations)
    (actors : next.actors = Function.update bus.actors id
      { bus.actors id with stage := .awaiting }) : Queued next := by
  have distinct := queued.distinct
  rw [waiting, List.nodup_cons] at distinct
  refine ⟨distinct.2, fun other => ?_⟩
  have known := queued.registered other
  rw [waiting, List.mem_cons] at known
  rw [actors]
  by_cases isTarget : other = id
  · simp [isTarget, distinct.1]
  · simpa [isTarget] using known

theorem queued_step {bus next : ActorBus Id} {action : Action Id} (queued : Queued bus)
    (moves : Moves bus next action) : Queued next := by
  cases moves with
  | acts changes actors =>
    generalize left : next.registrations = registrations at changes
    cases changes with
    | spawned unused => exact queued.of_update actors left.symm (by simp [unused])
    | opened unused => exact queued.of_update actors left.symm (by simp [unused])
    | registered unqueued => exact queued.append unqueued actors left.symm
    | refused unqueued => exact queued.of_update actors left.symm (by simp [unqueued])
    | ended running => exact queued.of_update actors left.symm Iff.rfl
    | dropped => exact queued.of_update actors left.symm Iff.rfl
    | monitored waiting => exact queued.tail (left ▸ waiting) actors
    | closed awaited ended => exact queued.of_update actors left.symm (by simp [awaited])
    | received draining waiting => exact queued.of_update actors left.symm (by simp [draining])
    | drained draining empty => exact queued.of_update actors left.symm (by simp [draining])
    | stopped stopping => exact queued.of_update actors left.symm (by simp [stopping])
    | notified exiting ended => exact queued.of_update actors left.symm (by simp [exiting])
    | pushed isOpen => exact queued.of_update actors left.symm Iff.rfl
  | links current completes isOpen actors registrations =>
    exact queued.of_update actors registrations.symm Iff.rfl
  | calls actors registrations => exact queued.of_eq actors registrations
  | misses current closed actors registrations => exact queued.of_eq actors registrations
  | halts current completes actors registrations => exact queued.of_eq actors registrations

end ActorBus
end H3llo.Actor
