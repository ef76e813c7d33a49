import H3llo.Basis.Traces
import H3llo.Actor.Links
import Mathlib.Data.Prod.Lex

/-! Every monitored actor is reported to its owner once, after its links were stopped.

The record of what was sent shows at most one report of each actor. That there is one at
last needs the bus to be driven and the monitor to be scheduled: a trace that is fair to
the next operation of the supervision of an ended task reaches the report.
-/

set_option autoImplicit false

namespace H3llo.Actor.ActorBus
open H3llo.Runs

variable {Id : Type} [DecidableEq Id]

def Unreported (bus : ActorBus Id) (id : Id) : Prop := ∀ sent ∈ bus.sends, isExitOf id sent = false

/-- The monitor of `id` has sent a stop to `linked`. -/
def StopSent (sends : List (Sent Id)) (id linked : Id) : Prop :=
  ∃ delivered, ⟨.monitor id, linked, .stop, delivered⟩ ∈ sends

/-- One report has been sent, to the owner and with the result of the task, and before it
a stop to each actor in the link set. -/
def Reported (bus : ActorBus Id) (id : Id) : Prop :=
  ∃ before result delivered after, (bus.actors id).result = some result ∧
    bus.sends = before ++ ⟨.monitor id, (bus.actors id).owner,
      .actorExited ⟨(bus.actors id).name, (bus.actors id).policy, result⟩, delivered⟩ :: after ∧
    (∀ sent ∈ before ++ after, isExitOf id sent = false) ∧
    ∀ linked ∈ (bus.actors id).linked, StopSent before id linked

variable {bus next : ActorBus Id} {action : Action Id} {id linked : Id}

/-! ## Ends of a monitor -/

theorem Moves.of_notify (moves : Moves bus next (.notify id)) :
    (bus.actors id).stage = .exiting ∧ (next.actors id).stage = .finished := by
  cases moves with
  | acts changes actors =>
    generalize next.registrations = registrations at changes
    cases changes with
    | notified exiting ended => exact ⟨exiting, by rw [actors, Function.update_self]⟩

omit [DecidableEq Id] in
/-- Once nobody can receive links any more, only the task and the inbox can change. -/
theorem Changes.of_gone {actor : ActorState Id} {registrations : List Id} {sent : List (Sent Id)}
    (queued : Queued bus) (changes : Changes bus id action actor registrations sent)
    (gone : (bus.actors id).stage.isGone = true) :
    (∃ result, (bus.actors id).result = none ∧
      actor = { bus.actors id with result := some result }) ∨
      actor = { bus.actors id with inboxOpen := false } := by
  cases changes with
  | spawned unused | opened unused => simp [unused, Stage.isGone] at gone
  | registered unqueued | refused unqueued => simp [unqueued, Stage.isGone] at gone
  | ended running => exact .inl ⟨_, running, rfl⟩
  | dropped => exact .inr rfl
  | monitored waiting =>
    have registered := queued.registered_head waiting
    simp [registered, Stage.isGone] at gone
  | closed awaited => simp [awaited, Stage.isGone] at gone
  | received draining | drained draining => simp [draining, Stage.isGone] at gone
  | stopped stopping => simp [stopping, Stage.isGone] at gone
  | notified exiting => simp [exiting, Stage.isGone] at gone
  | pushed isOpen =>
    rw [Stage.linksOpen_of_isEmptied (Stage.isEmptied_of_isGone gone)] at isOpen
    cases isOpen

/-! ## The link set -/

/-- Each accepted reference waits for its stop or has been sent one. -/
def Accounted (bus : ActorBus Id) : Prop :=
  ∀ id, (bus.actors id).stage ≠ .refused → ∀ linked ∈ (bus.actors id).linked,
    Pending bus id linked ∨ StopSent bus.sends id linked

theorem stopSent_step (moves : Moves bus next action) (sent : StopSent bus.sends id linked) :
    StopSent next.sends id linked := by
  obtain ⟨more, sends, -⟩ := moves.sent id
  obtain ⟨delivered, member⟩ := sent
  exact ⟨delivered, by rw [sends]; exact List.mem_append_left more member⟩

theorem accounted_step (queued : Queued bus) (moves : Moves bus next action)
    (accounted : Accounted bus) : Accounted next := by
  intro id kept linked member
  obtain same | ⟨actor, registrations, sent, is, changes, -⟩ := moves.actor id
  · rw [same] at kept member
    obtain pending | sent := accounted id kept linked member
    · refine .inl ?_
      unfold Pending
      rw [same]
      exact pending
    · exact .inr (stopSent_step moves sent)
  · have known : linked ∈ (bus.actors id).linked ∨ linked ∈ (next.actors id).links := by
      rw [is] at member ⊢
      cases changes with
      | pushed isOpen =>
        obtain old | new := List.mem_append.mp member
        · exact .inl old
        · exact .inr (List.mem_append_right _ new)
      | _ => exact .inl member
    have alive : (bus.actors id).stage ≠ .refused := by
      intro refused
      obtain ⟨result, -, rfl⟩ | rfl := changes.of_gone queued (by rw [refused]; rfl)
      · exact kept (is ▸ refused)
      · exact kept (is ▸ refused)
    have registers : action ≠ .refuse id := by
      rintro rfl
      cases changes with
      | refused => exact kept (is ▸ rfl)
    obtain old | new := known
    · obtain pending | sent := accounted id alive linked old
      · obtain pending | sent := pending_step queued moves registers pending
        · exact .inl pending
        · exact .inr ⟨_, sent⟩
      · exact .inr (stopSent_step moves sent)
    · exact .inl (.inl new)

/-! ## The report -/

/-- The record agrees with the stage of each monitor. -/
def Ledger (bus : ActorBus Id) : Prop :=
  ∀ id, if (bus.actors id).stage = .finished then Reported bus id else Unreported bus id

theorem reported_step (queued : Queued bus) (moves : Moves bus next action)
    (finished : (bus.actors id).stage = .finished) (reported : Reported bus id) :
    (next.actors id).stage = .finished ∧ Reported next id := by
  obtain ⟨before, result, delivered, after, ended, sends, others, stops⟩ := reported
  obtain ⟨more, extended, quiet⟩ := moves.sent id
  have kept : ∃ inboxOpen, next.actors id = { bus.actors id with inboxOpen } := by
    obtain same | ⟨actor, registrations, sent, is, changes, -⟩ := moves.actor id
    · exact ⟨_, same⟩
    · obtain ⟨other, running, -⟩ | dropped := changes.of_gone queued (by rw [finished]; rfl)
      · rw [running] at ended
        cases ended
      · exact ⟨false, is.trans dropped⟩
  have silent : ∀ sent ∈ more, isExitOf id sent = false := by
    intro sent member
    by_contra exits
    obtain rfl := quiet sent member (by simpa using exits)
    rw [moves.of_notify.1] at finished
    cases finished
  obtain ⟨inboxOpen, kept⟩ := kept
  refine ⟨by rw [kept]; exact finished, before, result, delivered, after ++ more, ?_⟩
  rw [kept]
  refine ⟨ended, by rw [extended, sends, List.append_assoc, List.cons_append], ?_, stops⟩
  intro sent member
  rw [← List.append_assoc] at member
  obtain old | new := List.mem_append.mp member
  · exact others sent old
  · exact silent sent new

theorem reported_of_notified {result : TaskResult} {sent : Sent Id} (accounted : Accounted bus)
    (emptied : Emptied bus) (unreported : Unreported bus id)
    (exiting : (bus.actors id).stage = .exiting) (ended : (bus.actors id).result = some result)
    (is : next.actors id = { bus.actors id with stage := .finished })
    (report : sent = ⟨.monitor id, (bus.actors id).owner,
      .actorExited ⟨(bus.actors id).name, (bus.actors id).policy, result⟩, sent.delivered⟩)
    (sends : next.sends = bus.sends ++ [sent]) : Reported next id := by
  refine ⟨bus.sends, result, sent.delivered, [], ?_⟩
  rw [is, List.append_nil, ← report]
  refine ⟨ended, sends, unreported, fun linked member => ?_⟩
  obtain (waiting | stopping) | stopped := accounted id (by rw [exiting]; nofun) linked member
  · rw [emptied id (by rw [exiting]; rfl)] at waiting
    cases waiting
  · rw [exiting] at stopping
    cases stopping
  · exact stopped

theorem unreported_step (moves : Moves bus next action)
    (unfinished : (next.actors id).stage ≠ .finished) (unreported : Unreported bus id) :
    Unreported next id := by
  obtain ⟨more, extended, quiet⟩ := moves.sent id
  intro sent member
  rw [extended] at member
  obtain old | new := List.mem_append.mp member
  · exact unreported sent old
  · by_contra exits
    obtain rfl := quiet sent new (by simpa using exits)
    exact unfinished moves.of_notify.2

theorem ledger_step (queued : Queued bus) (emptied : Emptied bus) (accounted : Accounted bus)
    (moves : Moves bus next action) (ledger : Ledger bus) : Ledger next := by
  intro id
  have current := ledger id
  by_cases finished : (bus.actors id).stage = .finished
  · rw [if_pos finished] at current
    obtain ⟨still, reported⟩ := reported_step queued moves finished current
    rw [if_pos still]
    exact reported
  · rw [if_neg finished] at current
    by_cases now : (next.actors id).stage = .finished
    · rw [if_pos now]
      obtain same | ⟨actor, registrations, sent, is, changes, sends⟩ := moves.actor id
      · exact absurd (same ▸ now) finished
      · rw [is] at now
        cases changes with
        | ended | dropped | pushed => exact absurd now finished
        | notified exiting ended =>
          exact reported_of_notified accounted emptied current exiting ended is rfl sends
        | _ => cases now
    · rw [if_neg now]
      exact unreported_step moves now current

/-! ## Whole runs -/

structure Sound (bus : ActorBus Id) : Prop where
  queued : Queued bus
  emptied : Emptied bus
  settled : ∀ call ∈ bus.calls, Settled bus call
  accounted : Accounted bus
  ledger : Ledger bus

theorem sound_new : Sound (new : ActorBus Id) where
  queued := queued_new
  emptied _ _ := rfl
  settled := nofun
  accounted := nofun
  ledger id := by
    rw [if_neg (show (new.actors id).stage ≠ .finished from nofun)]
    exact nofun

theorem sound_step (sound : Sound bus) (driven : Driven bus action)
    (taken : step action bus = some next) : Sound next := by
  have moves := moves_of_step taken
  exact {
    queued := queued_step sound.queued moves
    emptied := emptied_step moves sound.emptied
    settled := calls_step sound.queued moves driven sound.settled
    accounted := accounted_step sound.queued moves sound.accounted
    ledger := ledger_step sound.queued sound.emptied sound.accounted moves sound.ledger }

theorem sound_of_reaches (reached : Reaches step Driven new bus) : Sound bus :=
  reached.invariant sound_new fun _ _ _ sound driven taken => sound_step sound driven taken

/-! ## The supervision of an ended task -/

/-- The next operation of the bus or of the monitor towards the report of `id`. -/
def supervision (id : Id) (bus : ActorBus Id) : Action Id :=
  match (bus.actors id).stage with
  | .registered => .drive
  | .awaiting => .close id
  | .draining => .receive id
  | .stopping _ => .stop id
  | _ => .notify id

/-- How far the report is away. While the task is registered or awaited the link set may
still grow; what counts then is the place in the queue. -/
def distance (id : Id) (bus : ActorBus Id) : Nat ×ₗ Nat :=
  toLex (match (bus.actors id).stage with
    | .registered => (3, bus.registrations.idxOf id)
    | .awaiting => (2, 0)
    | .draining => (1, 2 * (bus.actors id).links.length)
    | .stopping _ => (1, 2 * (bus.actors id).links.length + 1)
    | _ => (0, 0))

structure Waits (id : Id) (bus : ActorBus Id) : Prop where
  queued : Queued bus
  supervised : (bus.actors id).stage.isSupervised = true
  ended : (bus.actors id).result ≠ none

theorem idxOf_step (queued : Queued bus) (moves : Moves bus next action)
    (before : (bus.actors id).stage = .registered) (after : (next.actors id).stage = .registered) :
    next.registrations.idxOf id ≤ bus.registrations.idxOf id := by
  have waiting := (queued.registered id).mpr before
  have remains := ((queued_step queued moves).registered id).mpr after
  cases moves with
  | acts changes =>
    generalize next.registrations = registrations at changes remains
    cases changes with
    | registered => rw [List.idxOf_append, if_pos waiting]
    | monitored first =>
      have distinct := queued.distinct
      rw [first, List.nodup_cons] at distinct
      have other := ne_of_mem_of_not_mem remains distinct.1
      rw [first, List.idxOf_cons, beq_false_of_ne other.symm]
      exact Nat.le_succ _
    | _ => exact le_refl _
  | calls actors registrations => rw [registrations]
  | links current completes isOpen actors registrations => rw [registrations]
  | misses current closed actors registrations => rw [registrations]
  | halts current completes actors registrations => rw [registrations]

theorem distance_le_of_stage (queued : Queued bus) (moves : Moves bus next action)
    (stage : (next.actors id).stage = (bus.actors id).stage)
    (links : (bus.actors id).stage.linksOpen = false → (next.actors id).links =
      (bus.actors id).links) :
    distance id next ≤ distance id bus := by
  unfold distance
  rw [stage]
  cases current : (bus.actors id).stage with
  | registered =>
    exact Prod.Lex.toLex_le_toLex.mpr
      (.inr ⟨rfl, idxOf_step queued moves current (stage.trans current)⟩)
  | draining => rw [links (by rw [current]; rfl)]
  | stopping linked => rw [links (by rw [current]; rfl)]
  | _ => exact le_refl _

theorem waits_step (moves : Moves bus next action) (waits : Waits id bus) :
    (next.actors id).stage = .finished ∨ Waits id next ∧ distance id next ≤ distance id bus := by
  obtain ⟨queued, supervised, ended⟩ := waits
  have stays (stage : (next.actors id).stage.isSupervised = true)
      (result : (next.actors id).result = (bus.actors id).result) : Waits id next :=
    ⟨queued_step queued moves, stage, by rwa [result]⟩
  -- Either the step is not about this actor, or it is one of its own changes.
  obtain same | ⟨actor, registrations, sent, is, changes, -⟩ := moves.actor id
  · refine .inr ⟨stays (by rwa [same]) (by rw [same]), ?_⟩
    exact distance_le_of_stage queued moves (by rw [same]) fun _ => by rw [same]
  · rw [is]
    cases changes with
    | spawned unused | opened unused =>
      rw [unused] at supervised
      cases supervised
    | registered unqueued | refused unqueued =>
      rw [unqueued] at supervised
      cases supervised
    | ended running => exact absurd running ended
    | dropped =>
      refine .inr ⟨stays (by rwa [is]) (by rw [is]), ?_⟩
      exact distance_le_of_stage queued moves (by rw [is]) fun _ => by rw [is]
    -- A link is refused once the actor drains, so that no work is added there.
    | pushed isOpen =>
      refine .inr ⟨stays (by rwa [is]) (by rw [is]), ?_⟩
      exact distance_le_of_stage queued moves (by rw [is]) fun closed => by simp [isOpen] at closed
    | monitored waiting =>
      refine .inr ⟨stays (by rw [is]; rfl) (by rw [is]), ?_⟩
      simp [distance, is, queued.registered_head waiting, Prod.Lex.toLex_le_toLex]
    | closed awaited =>
      refine .inr ⟨stays (by rw [is]; rfl) (by rw [is]), ?_⟩
      simp [distance, is, awaited, Prod.Lex.toLex_le_toLex]
    | received draining waiting =>
      refine .inr ⟨stays (by rw [is]; rfl) (by rw [is]), ?_⟩
      simp [distance, is, draining, waiting, Prod.Lex.toLex_le_toLex, Nat.mul_succ]
    | drained draining empty =>
      refine .inr ⟨stays (by rw [is]; rfl) (by rw [is]), ?_⟩
      simp [distance, is, draining, Prod.Lex.toLex_le_toLex]
    | stopped stopping =>
      refine .inr ⟨stays (by rw [is]; rfl) (by rw [is]), ?_⟩
      simp [distance, is, stopping, Prod.Lex.toLex_le_toLex]
    | notified => exact .inl rfl

theorem supervision_step (waits : Waits id bus) :
    ∃ after, step (supervision id bus) bus = some after ∧
      ((after.actors id).stage = .finished ∨ distance id after < distance id bus) := by
  obtain ⟨queued, supervised, ended⟩ := waits
  cases stage : (bus.actors id).stage with
  | registered =>
    -- It may not be the first one in the queue, but then the queue gets shorter.
    have waiting := (queued.registered id).mpr stage
    cases registrations : bus.registrations with
    | nil => simp [registrations] at waiting
    | cons first rest =>
      have taken : step (supervision id bus) bus =
          some { bus.setStage first .awaiting with registrations := rest } := by
        simp only [supervision, stage, step, registrations]
      refine ⟨_, taken, .inr ?_⟩
      by_cases isFirst : first = id
      · simp [distance, isFirst, stage, Prod.Lex.toLex_lt_toLex]
      · simp [distance, Function.update_of_ne (Ne.symm isFirst), stage, registrations,
          List.idxOf_cons, beq_false_of_ne isFirst, Prod.Lex.toLex_lt_toLex]
  | awaiting =>
    have taken : step (supervision id bus) bus = some (bus.setStage id .draining) := by
      simp only [supervision, stage, step, if_pos (And.intro trivial ended)]
    exact ⟨_, taken, .inr (by simp [distance, stage, Prod.Lex.toLex_lt_toLex])⟩
  | draining =>
    cases links : (bus.actors id).links with
    | nil =>
      have taken : step (supervision id bus) bus = some (bus.setStage id .exiting) := by
        simp only [supervision, stage, step, links, if_true]
      exact ⟨_, taken, .inr (by simp [distance, stage, Prod.Lex.toLex_lt_toLex])⟩
    | cons linked rest =>
      have taken : step (supervision id bus) bus =
          some
            (bus.setActor id { bus.actors id with stage := .stopping linked, links := rest }) := by
        simp only [supervision, stage, step, links, if_true]
      exact ⟨_, taken,
        .inr (by simp [distance, stage, links, Prod.Lex.toLex_lt_toLex, Nat.mul_succ])⟩
  | stopping linked =>
    have taken : step (supervision id bus) bus =
        some ((bus.send (.monitor id) linked .stop).setStage id .draining) := by
      simp only [supervision, stage, step]
    exact ⟨_, taken, .inr (by simp [distance, stage, Prod.Lex.toLex_lt_toLex])⟩
  | exiting =>
    obtain ⟨result, isResult⟩ := Option.ne_none_iff_exists'.mp ended
    have taken : step (supervision id bus) bus = some ((bus.send (.monitor id) (bus.actors id).owner
        (.actorExited ⟨(bus.actors id).name, (bus.actors id).policy, result⟩)).setStage id
          .finished) := by
      simp only [supervision, stage, step, isResult]
    exact ⟨_, taken, .inl (by simp)⟩
  | _ =>
    rw [stage] at supervised
    cases supervised

theorem reported_eventually {states : Nat → ActorBus Id} (sound : Sound (states 0))
    (traces : Traces step Driven states) (fair : Fair step (supervision id) states)
    (supervised : ((states 0).actors id).stage.isSupervised = true)
    (ended : ((states 0).actors id).result ≠ none) : ∃ n, Reported (states n) id := by
  have waits : Waits id (states 0) := ⟨sound.queued, supervised, ended⟩
  have finished : ∃ n, ((states n).actors id).stage = .finished :=
    traces.eventually fair (fun _ _ _ waits _ taken => waits_step (moves_of_step taken) waits)
      (fun _ waits => supervision_step waits) waits
  obtain ⟨n, finished⟩ := finished
  have later : Sound (states n) :=
    (traces.reaches n).invariant sound fun _ _ _ sound driven taken =>
    sound_step sound driven taken
  have ledger := later.ledger id
  rw [if_pos finished] at ledger
  exact ⟨n, ledger⟩

/-- Links never miss an exit. A returned call covers both sides, whatever was interleaved
with it, and each registered actor is reported once, after the stops to its link set. -/
theorem links_never_miss_exit {bus : ActorBus Id} (reached : Reaches step Driven new bus) :
    (∀ call ∈ bus.calls, call.point = .returned →
      ((bus.actors call.self).stage.isGone = true → Halted bus call.other) ∧
      ((bus.actors call.other).stage.isGone = true → Halted bus call.self)) ∧
    (∀ id, if (bus.actors id).stage = .finished then Reported bus id else Unreported bus id) ∧
    ∀ states, Traces step Driven states → states 0 = bus → ∀ id, Fair step (supervision id) states →
      (bus.actors id).stage.isSupervised = true → (bus.actors id).result ≠ none → ∃ n,
      Reported (states n) id := by
  have sound := sound_of_reaches reached
  refine ⟨fun call member returned => ?_, sound.ledger, ?_⟩
  · have settled := sound.settled call member
    have halfway : call.point.isHalfway = true := by rw [returned]; rfl
    exact ⟨fun gone => halted_of_gone sound.emptied gone (settled.half halfway),
      fun gone => halted_of_gone sound.emptied gone (settled.whole returned)⟩
  · rintro states traces rfl id fair supervised ended
    exact reported_eventually sound traces fair supervised ended

/-- The filter of a receive pipeline ends between the two halves of the call that links it
to its socket; `0` is the mailbox of the owner. -/
def linkedPair : List (Action Nat) :=
  [.mailbox 0 "orchestrator",
   .spawn 1 0 "bare-rx-filter" .critical, .register 1,
   .spawn 2 0 "udp-rx" .critical, .register 2,
   .link 1 2, .advance 0, .finish 1 (.returned none), .advance 0]

def pairSupervision : List (Action Nat) :=
  [.drive, .close 1, .receive 1, .stop 1, .receive 1, .notify 1]

theorem links_never_miss_exit_filter :
    ∃ states : Nat → ActorBus Nat, Traces step Driven states ∧ Reaches step Driven new (states 0) ∧
      (∃ n, Reported (states n) 1) ∧ ⟨1, 2, .returned⟩ ∈ (states 6).calls ∧
        Halted (states 6) 2 := by
  have ran : (run (guarded step Driven) linkedPair new).any (fun bus =>
      decide ((bus.actors 1).stage.isSupervised = true ∧ (bus.actors 1).result ≠ none ∧
        (run (guarded step Driven) pairSupervision bus).any (fun last =>
          decide (⟨1, 2, .returned⟩ ∈ last.calls ∧ (last.actors 1).stage.isGone = true ∧
            (step (supervision 1 last) last).isNone = true)) = true)) = true := by
    decide +kernel
  obtain ⟨bus, executed, checked⟩ := (Option.any_eq_true ..).mp ran
  obtain ⟨isSupervised, ended, checked⟩ := of_decide_eq_true checked
  obtain ⟨last, completed, checked⟩ := (Option.any_eq_true ..).mp checked
  obtain ⟨member, gone, idle⟩ := of_decide_eq_true checked
  have reached := reaches_of_guarded_run executed
  have reachedLast := reached.trans (reaches_of_guarded_run completed)
  have start : along (guarded step Driven) pairSupervision bus 0 = bus :=
    along_zero pairSupervision bus
  have rests : along (guarded step Driven) pairSupervision bus 6 = last :=
    along_of_run completed (le_refl 6)
  have traces : Traces step Driven (along (guarded step Driven) pairSupervision bus) :=
    traces_along pairSupervision bus
  have fair : Fair step (supervision 1) (along (guarded step Driven) pairSupervision bus) :=
    fair_along completed (Option.isNone_iff_eq_none.mp idle)
  have reported := (links_never_miss_exit reached).2.2 _ traces start 1 fair isSupervised ended
  have halted := ((links_never_miss_exit reachedLast).1 _ member rfl).1 gone
  exact ⟨_, traces, by rw [start]; exact reached,
    reported, by rw [rests]; exact member, by rw [rests]; exact halted⟩

end H3llo.Actor.ActorBus
