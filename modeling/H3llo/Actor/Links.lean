import H3llo.Actor.Bus

/-! No linked actor outlives the actor it is linked to unnoticed.

A reference that a links channel accepted is in its queue until the monitor takes it out
and sends the stop. The two halves of a call to `link` are covered one after the other,
and a covered actor stays covered whatever is interleaved.
-/

set_option autoImplicit false

namespace H3llo.Actor
open H3llo.Runs

variable {Id : Type}

/-- The links receiver holds nothing: it does not exist yet, is empty or was dropped. -/
def Stage.isEmptied : Stage Id → Bool
  | .absent | .exiting | .finished | .refused | .mailbox => true
  | _ => false

/-- The monitor has finished, the actor could not be registered, or it never had a receiver. -/
def Stage.isGone : Stage Id → Bool
  | .finished | .refused | .mailbox => true
  | _ => false

def Stage.isSupervised : Stage Id → Bool
  | .registered | .awaiting | .draining | .stopping _ | .exiting => true
  | _ => false

theorem Stage.isEmptied_of_isGone {stage : Stage Id} (gone : stage.isGone = true) :
    stage.isEmptied = true := by
  cases stage <;> first | rfl | cases gone

theorem Stage.linksOpen_of_isEmptied {stage : Stage Id} (empty : stage.isEmptied = true) :
    stage.linksOpen = false := by
  cases stage <;> first | rfl | cases empty

namespace ActorBus

def Halted (bus : ActorBus Id) (id : Id) : Prop :=
  (bus.actors id).inboxOpen = false ∨
    ∃ sent ∈ bus.sends, sent.target = id ∧ sent.event = .stop ∧ sent.delivered = true

/-- The links receiver of `id` still holds `linked`, or the monitor has just taken it out. -/
def Pending (bus : ActorBus Id) (id linked : Id) : Prop :=
  linked ∈ (bus.actors id).links ∨ (bus.actors id).stage = .stopping linked

def Covered (bus : ActorBus Id) (id linked : Id) : Prop := bus.Pending id linked ∨ bus.Halted linked

/-- The bus keeps being driven: no registration is refused once the reference is used in a
call. Spawning hands the reference out only after it has registered the actor. -/
def Driven (bus : ActorBus Id) (action : Action Id) : Prop :=
  ∀ call ∈ bus.calls, action ≠ .refuse call.self ∧ action ≠ .refuse call.other

variable [DecidableEq Id] {bus next : ActorBus Id} {action : Action Id} {id linked : Id}

instance (bus : ActorBus Id) (action : Action Id) : Decidable (Driven bus action) :=
  inferInstanceAs
    (Decidable (∀ call ∈ bus.calls, action ≠ .refuse call.self ∧ action ≠ .refuse call.other))

instance (bus : ActorBus Id) (id : Id) : Decidable (Halted bus id) :=
  inferInstanceAs (Decidable ((bus.actors id).inboxOpen = false ∨
    ∃ sent ∈ bus.sends, sent.target = id ∧ sent.event = .stop ∧ sent.delivered = true))

/-! ## What a step keeps -/

theorem Moves.inboxClosed (moves : Moves bus next action)
    (closed : (bus.actors id).inboxOpen = false) : (next.actors id).inboxOpen = false := by
  obtain same | ⟨actor, registrations, sent, is, changes, -⟩ := moves.actor id
  · rw [same]
    exact closed
  · rw [is]
    cases changes with
    | dropped => rfl
    | _ => exact closed

theorem halted_step (moves : Moves bus next action) (halted : Halted bus id) : Halted next id := by
  obtain closed | ⟨sent, member, stops⟩ := halted
  · exact .inl (moves.inboxClosed closed)
  · obtain ⟨more, sends, -⟩ := moves.sent id
    exact .inr ⟨sent, by rw [sends]; exact List.mem_append_left more member, stops⟩

theorem halted_of_sent {sender : Sender Id} (moves : Moves bus next action)
    (sent : ⟨sender, linked, .stop, (bus.actors linked).inboxOpen⟩ ∈ next.sends) :
    Halted next linked := by
  cases inbox : (bus.actors linked).inboxOpen with
  | false => exact .inl (moves.inboxClosed inbox)
  | true => exact .inr ⟨_, sent, rfl, rfl, inbox⟩

theorem pending_step (queued : Queued bus) (moves : Moves bus next action)
    (kept : action ≠ .refuse id) (pending : Pending bus id linked) :
    Pending next id linked ∨ ⟨.monitor id, linked, .stop, (bus.actors linked).inboxOpen⟩ ∈
      next.sends := by
  obtain same | ⟨actor, registrations, sent, is, changes, sends⟩ := moves.actor id
  · refine .inl ?_
    unfold Pending
    rw [same]
    exact pending
  · unfold Pending
    rw [is, sends]
    obtain waiting | stopping := pending
    · cases changes with
      | refused => exact absurd rfl kept
      | received draining taken =>
        rw [taken] at waiting
        obtain rfl | later := List.mem_cons.mp waiting
        · exact .inl (.inr rfl)
        · exact .inl (.inl later)
      | pushed isOpen => exact .inl (.inl (List.mem_append_left _ waiting))
      | _ => exact .inl (.inl waiting)
    · cases changes with
      | spawned unused | opened unused => simp [unused] at stopping
      | registered unqueued | refused unqueued => simp [unqueued] at stopping
      | ended | dropped => exact .inl (.inr stopping)
      | monitored waiting =>
        have registered := queued.registered_head waiting
        simp [registered] at stopping
      | closed awaited => simp [awaited] at stopping
      | received draining | drained draining => simp [draining] at stopping
      | stopped current =>
        rw [current] at stopping
        cases stopping
        exact .inr (List.mem_append_right _ List.mem_cons_self)
      | notified exiting => simp [exiting] at stopping
      | pushed isOpen => simp [stopping, Stage.linksOpen] at isOpen

theorem covered_step (queued : Queued bus) (moves : Moves bus next action)
    (kept : action ≠ .refuse id) (covered : Covered bus id linked) : Covered next id linked := by
  obtain pending | halted := covered
  · obtain pending | sent := pending_step queued moves kept pending
    · exact .inl pending
    · exact .inr (halted_of_sent moves sent)
  · exact .inr (halted_step moves halted)

/-! ## Calls -/

structure Settled (bus : ActorBus Id) (call : LinkCall Id) : Prop where
  half : call.point.isHalfway = true → Covered bus call.self call.other
  whole : call.point = .returned → Covered bus call.other call.self

theorem settled_step {call : LinkCall Id} (queued : Queued bus) (moves : Moves bus next action)
    (driven : action ≠ .refuse call.self ∧ action ≠ .refuse call.other)
    (settled : Settled bus call) : Settled next call where
  half halfway := covered_step queued moves driven.1 (settled.half halfway)
  whole returned := covered_step queued moves driven.2 (settled.whole returned)

omit [DecidableEq Id] in
theorem settled_of_completes {call : LinkCall Id} {point : LinkPoint}
    (completes : Completes call id linked point) (settled : Settled next call)
    (covered : Covered next id linked) : Settled next { call with point } := by
  obtain ⟨rfl, rfl, rfl⟩ | ⟨rfl, rfl, rfl, halfway⟩ := completes
  · exact ⟨fun _ => covered, nofun⟩
  · exact ⟨fun _ => settled.half halfway, fun _ => covered⟩

omit [DecidableEq Id] in
theorem settled_of_misses {call : LinkCall Id} {point : LinkPoint} (closed : Misses bus call point)
    (settled : Settled next call) : Settled next { call with point } := by
  cases point with
  | stopOther => exact ⟨nofun, nofun⟩
  | stopSelf => exact ⟨fun _ => settled.half (by rw [closed.1]; rfl), nofun⟩
  | _ => exact closed.elim

omit [DecidableEq Id] in
theorem settled_set {index : Nat} {call : LinkCall Id} {point : LinkPoint}
    (others : ∀ call ∈ bus.calls, Settled next call)
    (calls : next.calls = bus.calls.set index { call with point })
    (moved : Settled next { call with point }) : ∀ call ∈ next.calls, Settled next call := by
  intro other member
  rw [calls] at member
  obtain old | rfl := List.mem_or_eq_of_mem_set member
  · exact others other old
  · exact moved

theorem calls_step (queued : Queued bus) (moves : Moves bus next action)
    (driven : Driven bus action) (settled : ∀ call ∈ bus.calls, Settled bus call) :
    ∀ call ∈ next.calls, Settled next call := by
  have old : ∀ call ∈ bus.calls, Settled next call := fun call member =>
    settled_step queued moves (driven call member) (settled call member)
  cases moves with
  | acts changes actors calls sends => rwa [calls]
  | calls actors registrations calls sends =>
    intro call member
    rw [calls, List.mem_append, List.mem_singleton] at member
    obtain earlier | rfl := member
    · exact old call earlier
    · exact ⟨nofun, nofun⟩
  | @links index call id linked point current completes isOpen actors registrations calls sends =>
    have handed : Covered next id linked := by
      refine .inl (.inl ?_)
      rw [actors, Function.update_self]
      exact List.mem_append_right _ List.mem_cons_self
    exact settled_set old calls (settled_of_completes completes (old call current) handed)
  | @misses index call point current closed actors registrations calls sends =>
    exact settled_set old calls (settled_of_misses closed (old call current))
  | @halts index call id linked point current completes actors registrations calls sends =>
    have stopped : Covered next id linked := by
      have sent : ⟨.linkCall, linked, .stop, (bus.actors linked).inboxOpen⟩ ∈ next.sends := by
        rw [sends]
        exact List.mem_append_right _ List.mem_cons_self
      exact .inr (halted_of_sent (.halts current completes actors registrations calls sends) sent)
    exact settled_set old calls (settled_of_completes completes (old call current) stopped)

/-! ## Receivers that are gone -/

def Emptied (bus : ActorBus Id) : Prop :=
  ∀ id, (bus.actors id).stage.isEmptied = true → (bus.actors id).links = []

theorem emptied_step (moves : Moves bus next action) (emptied : Emptied bus) : Emptied next := by
  intro id empty
  obtain same | ⟨actor, registrations, sent, is, changes, -⟩ := moves.actor id
  · rw [same] at empty ⊢
    exact emptied id empty
  · rw [is] at empty ⊢
    cases changes with
    | opened unused => exact emptied id (by rw [unused]; rfl)
    | refused => rfl
    | ended | dropped => exact emptied id empty
    | drained draining isEmpty => exact isEmpty
    | notified exiting => exact emptied id (by rw [exiting]; rfl)
    | pushed isOpen =>
      rw [Stage.linksOpen_of_isEmptied empty] at isOpen
      cases isOpen
    | _ => cases empty

omit [DecidableEq Id] in
theorem halted_of_gone (emptied : Emptied bus) (gone : (bus.actors id).stage.isGone = true)
    (covered : Covered bus id linked) : Halted bus linked := by
  obtain (waiting | stopping) | halted := covered
  · rw [emptied id (Stage.isEmptied_of_isGone gone)] at waiting
    cases waiting
  · rw [stopping] at gone
    cases gone
  · exact halted

end ActorBus
end H3llo.Actor
