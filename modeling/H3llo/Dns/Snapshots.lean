import H3llo.Basis.Runs
import H3llo.Dns.Actor

/-! Snapshots of the resolver are complete and minimal.

The dirty flag is set by changes in four places. Outside registration updates it is
set exactly when the addresses of some host change, so that the snapshot sent last is
always the current one.
-/

set_option autoImplicit false

namespace H3llo.Dns
open H3llo.Net H3llo.Runs

namespace DnsActor

variable {tuning : DnsTuning} {actor after : DnsActor} {now : Nat} {emitted : Option DnsSnapshot}

/-! ## The dirty flag -/

theorem dirty_iterate {input : DnsInput}
    (taken : actor.iterate tuning now input = some (after, emitted)) : after.dirty = false := by
  obtain ⟨middle, _, sent⟩ := Option.map_eq_some_iff.mp taken
  unfold emitSnapshot at sent
  split at sent
  next =>
    cases sent
    rfl
  next clean =>
    cases sent
    simpa using clean

theorem snapshot_recordIps_ne (clean : actor.dirty = false) {host : String}
    {records : HashMap IpAddr UInt32}
    (dirty : (actor.recordIps tuning now host records).dirty = true) :
    (actor.recordIps tuning now host records).snapshot ≠ actor.snapshot := by
  unfold recordIps at dirty ⊢
  cases found : actor.hostnames.lookup host with
  | none => simp [found, clean] at dirty
  | some entry =>
    simp only [found, clean, Bool.false_or, decide_eq_true_eq, Finset.not_subset] at dirty ⊢
    obtain ⟨ip, recorded, unknown⟩ := dirty
    intro same
    have listed := congrArg (fun snapshot : DnsSnapshot => snapshot.lookup host) same
    simp only [lookup_snapshot, found, Finmap.lookup_insert, Option.map_some,
      Option.some.injEq] at listed
    rw [← listed] at unknown
    apply unknown
    rw [Finmap.mem_keys] at recorded ⊢
    exact Finmap.mem_union.mpr (.inl ((HashMap.mem_map _ _ ip).mpr recorded))

theorem snapshot_expireStale_ne (clean : actor.dirty = false)
    (dirty : (actor.expireStale now).dirty = true) :
    (actor.expireStale now).snapshot ≠ actor.snapshot := by
  simp only [expireStale, clean, Bool.false_or, HashMap.any_eq_true] at dirty
  obtain ⟨host, entry, found, ip, expires, known, expired⟩ := dirty
  intro same
  have listed := congrArg (fun snapshot : DnsSnapshot => snapshot.lookup host) same
  simp only [lookup_snapshot, expireStale, HashMap.lookup_map, found, Option.map_some,
    Option.some.injEq] at listed
  have member : ip ∈ entry.ips.keys := Finmap.mem_keys.mpr (Finmap.mem_of_lookup_eq_some known)
  rw [← listed, Finmap.mem_keys, ← Finmap.lookup_isSome, HashMap.lookup_retain, known] at member
  simp [of_decide_eq_true expired] at member

/-- Outside registration updates, a clean actor gets dirty only by a change of addresses. -/
theorem snapshot_select_ne (clean : actor.dirty = false) {input : DnsInput}
    (other : ∀ hosts, input ≠ .setHostnames hosts)
    (taken : actor.select tuning now input = some after) (dirty : after.dirty = true) :
    after.snapshot ≠ actor.snapshot := by
  cases input with
  | setHostnames hosts => exact absurd rfl (other hosts)
  | joined query result =>
    simp only [select, Option.ite_none_right_eq_some, Option.some.injEq] at taken
    obtain ⟨_, rfl⟩ := taken
    simp only [handleQueryResult] at dirty ⊢
    split at dirty
    next =>
      rw [clean] at dirty
      cases dirty
    next known =>
      rw [if_neg known]
      cases result with
      | none =>
        simp only [clean] at dirty
        cases dirty
      | some message =>
        simp only [handleResponse] at dirty ⊢
        split at dirty
        next =>
          simp only [clean] at dirty
          cases dirty
        next expected =>
          rw [if_neg expected]
          exact snapshot_recordIps_ne (by exact clean) dirty
  | refresh =>
    cases taken
    rw [← snapshot_triggerRefresh tuning actor now]
    exact snapshot_expireStale_ne (by exact clean) dirty
  | pace query =>
    simp only [select, Option.ite_none_right_eq_some, Option.some.injEq] at taken
    obtain ⟨_, rfl⟩ := taken
    simp only [spawnQuery, clean] at dirty
    cases dirty

theorem emitted_iterate (clean : actor.dirty = false) {input : DnsInput}
    (other : ∀ hosts, input ≠ .setHostnames hosts)
    (taken : actor.iterate tuning now input = some (after, emitted)) :
    emitted = if after.snapshot = actor.snapshot then none else some after.snapshot := by
  obtain ⟨middle, selected, sent⟩ := Option.map_eq_some_iff.mp taken
  unfold emitSnapshot at sent
  split at sent
  next dirty =>
    cases sent
    exact (if_neg (snapshot_select_ne clean other selected dirty)).symm
  next still =>
    cases sent
    exact (if_pos (snapshot_select selected (by simpa using still))).symm

/-! ## Results that change nothing -/

/-- A result that brings no new address of a registered host. -/
def Uneventful (actor : DnsActor) : DnsInput → Prop
  | .joined _ none => True
  | .joined query (some message) =>
      query.hostname ∉ actor.hostnames ∨ (extractRecords message query.recordType).keys ⊆
        actor.knownIps query.hostname
  | _ => False

theorem snapshot_uneventful {input : DnsInput} (uneventful : actor.Uneventful input)
    (taken : actor.iterate tuning now input = some (after, emitted)) (clean : actor.dirty = false) :
    after.snapshot = actor.snapshot := by
  obtain ⟨middle, selected, sent⟩ := Option.map_eq_some_iff.mp taken
  have still : middle.dirty = false := by
    cases input with
    | setHostnames hosts => exact uneventful.elim
    | refresh => exact uneventful.elim
    | pace query => exact uneventful.elim
    | joined query result =>
      simp only [select, Option.ite_none_right_eq_some, Option.some.injEq] at selected
      obtain ⟨_, rfl⟩ := selected
      simp only [handleQueryResult]
      split
      next => exact clean
      next known =>
        cases result with
        | none => exact clean
        | some message =>
          simp only [handleResponse]
          split
          next => exact clean
          next =>
            have renewed := uneventful.resolve_left known
            unfold recordIps
            split
            next => exact clean
            next entry found =>
              simp only [knownIps, found, Option.map_some, Option.getD_some] at renewed
              simp [clean, renewed]
  unfold emitSnapshot at sent
  rw [if_neg (by simp [still])] at sent
  cases sent
  exact snapshot_select selected still

end DnsActor

/-! ## Runs -/

structure Broadcast where
  actor : DnsActor
  sent : List DnsSnapshot

namespace Broadcast

def new : Broadcast := ⟨.new, []⟩

def step (tuning : DnsTuning) (action : Nat × DnsInput) (state : Broadcast) : Option Broadcast :=
  (state.actor.iterate tuning action.1 action.2).map fun (actor, emitted) =>
    ⟨actor, state.sent ++ emitted.toList⟩

structure Current (state : Broadcast) : Prop where
  clean : state.actor.dirty = false
  last : ∀ snapshot ∈ state.sent.getLast?, snapshot = state.actor.snapshot

theorem Current.step {tuning : DnsTuning} {action : Nat × DnsInput} {before after : Broadcast}
    (current : before.Current)
    (taken : step tuning action before = some after) : after.Current := by
  obtain ⟨⟨actor, emitted⟩, iterated, rfl⟩ := Option.map_eq_some_iff.mp taken
  refine ⟨DnsActor.dirty_iterate iterated, ?_⟩
  rcases DnsActor.iterate_snapshot iterated with rfl | ⟨rfl, same⟩
  · simp
  · intro snapshot newest
    simp only [Option.toList_none, List.append_nil] at newest
    rw [same]
    exact current.last snapshot newest

end Broadcast

/-- After every iteration the snapshot sent last is the current one. A registration update sends one
snapshot; any other iteration sends one exactly if the addresses changed. -/
theorem snapshots_exact (tuning : DnsTuning) {state : Broadcast}
    (reached : Reaches (Broadcast.step tuning) (fun _ _ => True) Broadcast.new state) :
    (∀ snapshot ∈ state.sent.getLast?, snapshot = state.actor.snapshot) ∧
    ∀ now input after, Broadcast.step tuning (now, input) state = some after →
      ((∃ hosts, input = .setHostnames hosts) → after.sent = state.sent ++ [after.actor.snapshot]) ∧
      ((∀ hosts, input ≠ .setHostnames hosts) → after.sent =
        if after.actor.snapshot = state.actor.snapshot then state.sent
          else state.sent ++ [after.actor.snapshot]) ∧
      (state.actor.Uneventful input → after.sent = state.sent) := by
  have current : state.Current :=
    reached.invariant ⟨rfl, by simp [Broadcast.new]⟩ fun _ _ _ before _ taken => before.step taken
  refine ⟨current.last, fun now input after taken => ?_⟩
  obtain ⟨⟨actor, emitted⟩, iterated, rfl⟩ := Option.map_eq_some_iff.mp taken
  have others (other : ∀ hosts, input ≠ .setHostnames hosts) : state.sent ++ emitted.toList =
      if actor.snapshot = state.actor.snapshot then
        state.sent
      else state.sent ++ [actor.snapshot] := by
    rw [DnsActor.emitted_iterate current.clean other iterated]
    split <;> simp
  refine ⟨?_, others, fun uneventful => ?_⟩
  · rintro ⟨hosts, rfl⟩
    rw [DnsActor.iterate_setHostnames] at iterated
    cases iterated
    rfl
  · have other : ∀ hosts, input ≠ .setHostnames hosts := by
      rintro hosts rfl
      exact uneventful
    exact (others other).trans
      (if_pos (DnsActor.snapshot_uneventful uneventful iterated current.clean))

def renewal : List (Nat × DnsInput) :=
  [(0, .setHostnames {"node"}), (1, .pace ⟨"node", .a⟩),
    (2, .joined ⟨"node", .a⟩ (some ⟨.noError, [⟨5, .a 0x0a000001⟩]⟩)),
    (60 * nanosPerSec, .refresh), (61 * nanosPerSec, .pace ⟨"node", .a⟩)]

theorem snapshots_exact_renewal :
    let renewed : DnsInput := .joined ⟨"node", .a⟩ (some ⟨.noError, [⟨0, .a 0x0a000001⟩]⟩)
    ∃ state after, Reaches (Broadcast.step ⟨60 * nanosPerSec, 120 * nanosPerSec⟩)
      (fun _ _ => True) Broadcast.new state ∧
      Broadcast.step ⟨60 * nanosPerSec, 120 * nanosPerSec⟩ (62 * nanosPerSec, renewed) state =
        some after ∧
      state.sent.length = 2 ∧ after.sent = state.sent := by
  intro renewed
  have executed :
      ((run (Broadcast.step ⟨60 * nanosPerSec, 120 * nanosPerSec⟩) renewal Broadcast.new).any
        fun state =>
      decide (state.sent.length = 2 ∧ (extractRecords ⟨.noError, [⟨0, .a 0x0a000001⟩]⟩ .a).keys ⊆
        state.actor.knownIps "node") &&
        (Broadcast.step ⟨60 * nanosPerSec, 120 * nanosPerSec⟩ (62 * nanosPerSec, renewed)
          state).isSome) = true := by
    decide +kernel
  obtain ⟨state, executed, facts⟩ := (Option.any_eq_true ..).mp executed
  rw [Bool.and_eq_true, decide_eq_true_eq, Option.isSome_iff_exists] at facts
  obtain ⟨⟨two, known⟩, after, taken⟩ := facts
  have reached : Reaches (Broadcast.step ⟨60 * nanosPerSec, 120 * nanosPerSec⟩)
      (fun _ _ => True) Broadcast.new state :=
    reaches_of_run (fun _ _ _ => trivial) executed
  exact ⟨state, after, reached, taken, two,
    ((snapshots_exact _ reached).2 _ renewed after taken).2.2 (.inr known)⟩

end H3llo.Dns
