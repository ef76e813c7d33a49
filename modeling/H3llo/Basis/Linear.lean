import Mathlib.Data.List.Nodup
import Mathlib.Logic.Relation

/-! Calls to a server that handles them one at a time.

Clients put their calls into a queue and wait for a reply of their own. A call may also fail,
before it is queued or while it waits. What the clients see is linearizable: there is one
order of the calls that the server answered in which a sequential object gives the same
replies, and it respects the order of calls that do not overlap.
-/

set_option autoImplicit false

namespace H3llo.Linear

variable {Id Op Reply State : Type}

/-- What clients see. A call returns `none` if it fails. -/
inductive Occurrence (Id Op Reply : Type) where
  | invoked (id : Id) (op : Op)
  | returned (id : Id) (reply : Option Reply)
  deriving DecidableEq

structure Server (Id Op Reply State : Type) where
  state : State
  queue : List (Id × Op)
  replies : List (Id × Reply)
  log : List (Id × Op × Reply)
  history : List (Occurrence Id Op Reply)

def start (initial : State) : Server Id Op Reply State := ⟨initial, [], [], [], []⟩

section Steps

variable (answers : State → Op → State → Reply → Prop)

inductive Step (server : Server Id Op Reply State) : Server Id Op Reply State → Prop where
  | invoke (id : Id) (op : Op) (fresh : ∀ other, .invoked id other ∉ server.history) :
      Step server
        { server with
          queue := server.queue ++ [(id, op)]
          history := server.history ++ [.invoked id op] }
  | handle {id : Id} {op : Op} {rest : List (Id × Op)} {next : State} {reply : Reply}
      (oldest : server.queue = (id, op) :: rest) (answered : answers server.state op next reply) :
      Step server
        { server with
          state := next, queue := rest, replies := server.replies ++ [(id, reply)]
          log := server.log ++ [(id, op, reply)] }
  | claim {id : Id} {reply : Reply} {before after : List (Id × Reply)}
      (given : server.replies = before ++ (id, reply) :: after) :
      Step server
        { server with
          replies := before ++ after
          history := server.history ++ [.returned id (some reply)] }
  | abandon {id : Id} {op : Op} {before after : List (Id × Op)}
      (waiting : server.queue = before ++ (id, op) :: after) :
      Step server
        { server with
          queue := before ++ after
          history := server.history ++ [.returned id none] }
  | turnAway (id : Id) (op : Op) (fresh : ∀ other, .invoked id other ∉ server.history) :
      Step server { server with history := server.history ++ [.invoked id op, .returned id none] }

/-- The replies of the log are those of a sequential object. -/
inductive Replays (initial : State) : List (Id × Op × Reply) → State → Prop where
  | nil : Replays initial [] initial
  | snoc {log : List (Id × Op × Reply)} {state next : State} {id : Id} {op : Op} {reply : Reply}
      (earlier : Replays initial log state) (answered : answers state op next reply) :
      Replays initial (log ++ [(id, op, reply)]) next

end Steps

/-- The first call has returned before the second one is made. -/
def Precedes (history : List (Occurrence Id Op Reply)) (first second : Id) : Prop :=
  ∃ early late, history = early ++ late ∧ (∃ reply, .returned first reply ∈ early) ∧ ∃ op,
    .invoked second op ∈ late

def Occurrence.returns [DecidableEq Id] (id : Id) : Occurrence Id Op Reply → Bool
  | .invoked _ _ => false
  | .returned other _ => other = id

structure Linearizable [DecidableEq Id] (answers : State → Op → State → Reply → Prop)
    (initial : State) (history : List (Occurrence Id Op Reply))
    (log : List (Id × Op × Reply)) : Prop where
  legal : ∃ final, Replays answers initial log final
  distinct : (log.map Prod.fst).Nodup
  invoked : ∀ entry ∈ log, .invoked entry.1 entry.2.1 ∈ history
  effective : ∀ id reply, .returned id (some reply) ∈ history → ∃ op, (id, op, reply) ∈ log
  failed : ∀ id, .returned id none ∈ history → id ∉ log.map Prod.fst
  once : ∀ id, history.countP (Occurrence.returns id) ≤ 1
  ordered : ∀ first second, Precedes history first second → first ∈ log.map Prod.fst →
    second ∈ log.map Prod.fst →
    [first, second].Sublist (log.map Prod.fst)

/-! ## Histories -/

theorem precedes_append {history : List (Occurrence Id Op Reply)} {last : Occurrence Id Op Reply}
    {first second : Id} (precedes : Precedes (history ++ [last]) first second) :
    Precedes history first second ∨ (∃ op, last = .invoked second op) ∧ ∃ reply,
    .returned first reply ∈ history := by
  obtain ⟨early, late, split, ⟨reply, isEarly⟩, op, isLate⟩ := precedes
  rcases List.eq_nil_or_concat late with rfl | ⟨front, final, rfl⟩
  · cases isLate
  · rw [List.concat_eq_append] at split isLate
    rw [← List.append_assoc] at split
    obtain ⟨sameHistory, sameLast⟩ := List.append_inj' split rfl
    rcases List.mem_append.mp isLate with inFront | isFinal
    · exact .inl ⟨early, front, sameHistory, ⟨reply, isEarly⟩, op, inFront⟩
    · have same : last = .invoked second op := by
        rw [List.cons.inj sameLast |>.1]
        exact (List.mem_singleton.mp isFinal).symm
      refine .inr ⟨⟨op, same⟩, reply, ?_⟩
      rw [sameHistory]
      exact List.mem_append_left _ isEarly

theorem countP_returns_eq_zero [DecidableEq Id] {history : List (Occurrence Id Op Reply)}
    {id : Id} (absent : ∀ reply, .returned id reply ∉ history) :
    history.countP (Occurrence.returns id) = 0 := by
  rw [List.countP_eq_zero]
  intro occurrence member
  cases occurrence with
  | invoked other op => exact Bool.false_ne_true
  | returned other reply =>
    simp only [Occurrence.returns, decide_eq_true_eq]
    rintro rfl
    exact absent reply member

/-! ## The invariant -/

section Invariant

variable [DecidableEq Id] {answers : State → Op → State → Reply → Prop} {initial : State}
  {server next : Server Id Op Reply State}

/-- A call waits in the queue, then its reply waits, and then it has returned. -/
structure Sound (answers : State → Op → State → Reply → Prop) (initial : State)
    (server : Server Id Op Reply State) : Prop where
  legal : Replays answers initial server.log server.state
  distinct : (server.queue.map Prod.fst ++ server.log.map Prod.fst).Nodup
  claimable : (server.replies.map Prod.fst).Nodup
  queued : ∀ entry ∈ server.queue, .invoked entry.1 entry.2 ∈ server.history ∧
    ∀ reply, .returned entry.1 reply ∉ server.history
  logged : ∀ entry ∈ server.log, .invoked entry.1 entry.2.1 ∈ server.history
  replied : ∀ entry ∈ server.replies, (∃ op, (entry.1, op, entry.2) ∈ server.log) ∧
    ∀ reply, .returned entry.1 reply ∉ server.history
  known : ∀ id reply, .returned id reply ∈ server.history → ∃ op, .invoked id op ∈ server.history
  effective : ∀ id reply, .returned id (some reply) ∈ server.history → ∃ op,
    (id, op, reply) ∈ server.log
  failed : ∀ id, .returned id none ∈ server.history → id ∉ server.log.map Prod.fst
  once : ∀ id, server.history.countP (Occurrence.returns id) ≤ 1
  ordered : ∀ first second, Precedes server.history first second → first ∈ server.log.map Prod.fst →
    second ∈ server.log.map Prod.fst → [first, second].Sublist (server.log.map Prod.fst)

theorem sound_start (initial : State) :
    Sound answers initial (start initial : Server Id Op Reply State) where
  legal := .nil
  distinct := List.nodup_nil
  claimable := List.nodup_nil
  queued := nofun
  logged := nofun
  replied := nofun
  known := nofun
  effective := nofun
  failed := nofun
  once _ := Nat.zero_le _
  ordered := nofun

section Fresh

variable {id : Id} (sound : Sound answers initial server)
  (fresh : ∀ other, .invoked id other ∉ server.history)
include sound fresh

theorem Sound.notQueued : id ∉ server.queue.map Prod.fst := by
  rw [List.mem_map]
  rintro ⟨entry, member, rfl⟩
  exact fresh _ (sound.queued entry member).1

theorem Sound.notLogged : id ∉ server.log.map Prod.fst := by
  rw [List.mem_map]
  rintro ⟨entry, member, rfl⟩
  exact fresh _ (sound.logged entry member)

theorem Sound.notReturned (reply : Option Reply) : .returned id reply ∉ server.history := by
  intro returned
  obtain ⟨op, invoked⟩ := sound.known id reply returned
  exact fresh op invoked

theorem sound_invoked (op : Op) :
    Sound answers initial { server with history := server.history ++ [.invoked id op] } := by
  have old {reply : Option Reply} {other : Id}
      (member : .returned other reply ∈ server.history ++ [.invoked id op]) :
      .returned other reply ∈ server.history := by simpa using member
  constructor
  · exact sound.legal
  · exact sound.distinct
  · exact sound.claimable
  · intro entry member
    obtain ⟨invoked, waits⟩ := sound.queued entry member
    exact ⟨List.mem_append_left _ invoked, fun reply returned => waits reply (old returned)⟩
  · exact fun entry member => List.mem_append_left _ (sound.logged entry member)
  · intro entry member
    obtain ⟨logged, waits⟩ := sound.replied entry member
    exact ⟨logged, fun reply returned => waits reply (old returned)⟩
  · intro other reply member
    obtain ⟨op, invoked⟩ := sound.known other reply (old member)
    exact ⟨op, List.mem_append_left _ invoked⟩
  · exact fun other reply member => sound.effective other reply (old member)
  · exact fun other member => sound.failed other (old member)
  · intro other
    rw [List.countP_append]
    exact sound.once other
  · intro first second precedes isFirst isSecond
    rcases precedes_append precedes with before | ⟨⟨op, same⟩, _⟩
    · exact sound.ordered first second before isFirst isSecond
    · -- the new call is not in the log yet
      cases same
      exact absurd isSecond (sound.notLogged fresh)

end Fresh

theorem sound_queued {id : Id} {op : Op} (sound : Sound answers initial server)
    (invoked : .invoked id op ∈ server.history)
    (pending : ∀ reply, .returned id reply ∉ server.history)
    (notQueued : id ∉ server.queue.map Prod.fst) (notLogged : id ∉ server.log.map Prod.fst) :
    Sound answers initial { server with queue := server.queue ++ [(id, op)] } where
  legal := sound.legal
  distinct := by
    rw [List.map_append, List.append_assoc]
    refine (List.perm_middle.nodup_iff).mpr (List.nodup_cons.mpr ⟨?_, sound.distinct⟩)
    rw [List.mem_append, not_or]
    exact ⟨notQueued, notLogged⟩
  claimable := sound.claimable
  queued := by
    intro entry member
    rcases List.mem_append.mp member with old | new
    · exact sound.queued entry old
    · rw [List.mem_singleton.mp new]
      exact ⟨invoked, pending⟩
  logged := sound.logged
  replied := sound.replied
  known := sound.known
  effective := sound.effective
  failed := sound.failed
  once := sound.once
  ordered := sound.ordered

theorem sound_handle {id : Id} {op : Op} {rest : List (Id × Op)} {state : State} {reply : Reply}
    (sound : Sound answers initial server) (oldest : server.queue = (id, op) :: rest)
    (answered : answers server.state op state reply) :
    Sound answers initial
      { server with
        state
        queue := rest
        replies := server.replies ++ [(id, reply)]
        log := server.log ++ [(id, op, reply)] } := by
  have first : (id, op) ∈ server.queue := by rw [oldest]; exact List.mem_cons_self
  obtain ⟨invoked, pending⟩ := sound.queued _ first
  have distinct := sound.distinct
  rw [oldest, List.map_cons, List.cons_append, List.nodup_cons, List.mem_append, not_or] at distinct
  obtain ⟨⟨notQueued, notLogged⟩, others⟩ := distinct
  have ids : (server.log ++ [(id, op, reply)]).map Prod.fst = server.log.map Prod.fst ++ [id] :=
    List.map_append
  constructor
  · exact .snoc sound.legal answered
  · rw [ids, ← List.append_assoc]
    refine (List.perm_append_singleton _ _).nodup_iff.mpr (List.nodup_cons.mpr ⟨?_, others⟩)
    rw [List.mem_append, not_or]
    exact ⟨notQueued, notLogged⟩
  · rw [List.map_append]
    refine (List.perm_append_singleton _ _).nodup_iff.mpr
      (List.nodup_cons.mpr ⟨?_, sound.claimable⟩)
    rw [List.mem_map]
    rintro ⟨entry, member, rfl⟩
    obtain ⟨⟨other, logged⟩, _⟩ := sound.replied entry member
    exact notLogged (List.mem_map_of_mem logged)
  · intro entry member
    exact sound.queued entry (by rw [oldest]; exact List.mem_cons_of_mem _ member)
  · intro entry member
    rcases List.mem_append.mp member with old | new
    · exact sound.logged entry old
    · rw [List.mem_singleton.mp new]
      exact invoked
  · intro entry member
    rcases List.mem_append.mp member with old | new
    · obtain ⟨⟨other, logged⟩, waits⟩ := sound.replied entry old
      exact ⟨⟨other, List.mem_append_left _ logged⟩, waits⟩
    · rw [List.mem_singleton.mp new]
      exact ⟨⟨op, List.mem_append_right _ (List.mem_singleton.mpr rfl)⟩, pending⟩
  · exact sound.known
  · intro other result member
    obtain ⟨op, logged⟩ := sound.effective other result member
    exact ⟨op, List.mem_append_left _ logged⟩
  · intro other member
    rw [ids, List.mem_append, List.mem_singleton, not_or]
    refine ⟨sound.failed other member, ?_⟩
    rintro rfl
    exact pending none member
  · exact sound.once
  · intro left right precedes isLeft isRight
    rw [ids] at isLeft isRight ⊢
    -- a call that has returned is not the one handled now
    have whole := precedes
    obtain ⟨early, late, split, ⟨result, returned⟩, _⟩ := whole
    have leftReturned : .returned left result ∈ server.history := by
      rw [split]
      exact List.mem_append_left _ returned
    have notNew : left ≠ id := by
      rintro rfl
      exact pending result leftReturned
    have leftLogged : left ∈ server.log.map Prod.fst := by simpa [notNew] using isLeft
    rcases List.mem_append.mp isRight with old | new
    · exact (sound.ordered left right precedes leftLogged old).trans (List.sublist_append_left _ _)
    · rw [List.mem_singleton.mp new]
      exact (List.singleton_sublist.mpr leftLogged).append (List.Sublist.refl [id])

theorem sound_returned {id : Id} {op : Op} {reply : Option Reply} {queue : List (Id × Op)}
    {replies : List (Id × Reply)} (sound : Sound answers initial server)
    (invoked : .invoked id op ∈ server.history)
    (pending : ∀ reply, .returned id reply ∉ server.history)
    (outcome : ∀ result, reply = some result → ∃ op, (id, op, result) ∈ server.log)
    (failure : reply = none → id ∉ server.log.map Prod.fst) (fewer : queue.Sublist server.queue)
    (fewerReplies : replies.Sublist server.replies) (gone : id ∉ queue.map Prod.fst)
    (claimed : id ∉ replies.map Prod.fst) :
    Sound answers initial
      { server with
        queue
        replies
        history := server.history ++ [.returned id reply] } := by
  -- The only new event is the return, so that each clause is about an old event or about this
  -- return.
  have old {result : Option Reply} {other : Id}
      (member : .returned other result ∈ server.history ++ [.returned id reply]) :
      .returned other result ∈ server.history ∨ other = id ∧ result = reply := by
    rcases List.mem_append.mp member with before | now
    · exact .inl before
    · exact .inr (Occurrence.returned.inj (List.mem_singleton.mp now))
  constructor
  · exact sound.legal
  · exact sound.distinct.sublist ((fewer.map _).append (List.Sublist.refl _))
  · exact sound.claimable.sublist (fewerReplies.map _)
  · intro entry member
    obtain ⟨isInvoked, waits⟩ := sound.queued entry (fewer.subset member)
    refine ⟨List.mem_append_left _ isInvoked, fun result returned => ?_⟩
    rcases old returned with before | ⟨rfl, _⟩
    · exact waits result before
    · exact gone (List.mem_map_of_mem member)
  · exact fun entry member => List.mem_append_left _ (sound.logged entry member)
  · intro entry member
    obtain ⟨logged, waits⟩ := sound.replied entry (fewerReplies.subset member)
    refine ⟨logged, fun result returned => ?_⟩
    rcases old returned with before | ⟨rfl, _⟩
    · exact waits result before
    · exact claimed (List.mem_map_of_mem member)
  · intro other result member
    rcases old member with before | ⟨rfl, _⟩
    · obtain ⟨op, isInvoked⟩ := sound.known other result before
      exact ⟨op, List.mem_append_left _ isInvoked⟩
    · exact ⟨op, List.mem_append_left _ invoked⟩
  · intro other result member
    rcases old member with before | ⟨rfl, same⟩
    · exact sound.effective other result before
    · exact outcome result same.symm
  · intro other member
    rcases old member with before | ⟨rfl, same⟩
    · exact sound.failed other before
    · exact failure same.symm
  · intro other
    rw [List.countP_append]
    by_cases same : other = id
    · rw [same, countP_returns_eq_zero pending, Nat.zero_add]
      exact List.countP_le_length
    · have others : [(Occurrence.returned id reply : Occurrence Id Op Reply)].countP
          (Occurrence.returns other) = 0 := by
        simp [Occurrence.returns, Ne.symm same]
      rw [others]
      exact sound.once other
  -- A return precedes nothing yet: for that a call has to be invoked after it.
  · intro first second precedes isFirst isSecond
    rcases precedes_append precedes with before | ⟨⟨op, same⟩, _⟩
    · exact sound.ordered first second before isFirst isSecond
    · cases same

omit [DecidableEq Id] in
theorem not_mem_of_nodup {Value : Type} {before after : List (Id × Value)} {id : Id}
    {value : Value} (distinct : ((before ++ (id, value) :: after).map Prod.fst).Nodup) :
    id ∉ (before ++ after).map Prod.fst := by
  rw [List.map_append, List.map_cons, List.perm_middle.nodup_iff, List.nodup_cons] at distinct
  rw [List.map_append]
  exact distinct.1

theorem sound_step (sound : Sound answers initial server) (taken : Step answers server next) :
    Sound answers initial next := by
  cases taken with
  | invoke id op fresh =>
    refine sound_queued (sound_invoked sound fresh op)
      (List.mem_append_right _ (List.mem_singleton.mpr rfl)) ?_
      (sound.notQueued fresh) (sound.notLogged fresh)
    intro reply returned
    exact sound.notReturned fresh reply (by simpa using returned)
  | handle oldest answered => exact sound_handle sound oldest answered
  | @claim id reply before after given =>
    have member : (id, reply) ∈ server.replies := by rw [given]; simp
    obtain ⟨⟨op, logged⟩, waits⟩ := sound.replied _ member
    have claimed := not_mem_of_nodup (given ▸ sound.claimable)
    have fewer : (before ++ after).Sublist server.replies := by
      rw [given]
      exact (List.Sublist.refl before).append (List.sublist_cons_self _ _)
    refine sound_returned sound (sound.logged _ logged) waits
      (fun result same => ?_) nofun (List.Sublist.refl _) fewer ?_
      claimed
    · cases same
      exact ⟨op, logged⟩
    -- An answered call has left the queue.
    · intro queued
      exact (List.nodup_append'.mp sound.distinct).2.2 queued (List.mem_map_of_mem logged)
  | @abandon id op before after waiting =>
    have member : (id, op) ∈ server.queue := by rw [waiting]; simp
    obtain ⟨invoked, waits⟩ := sound.queued _ member
    obtain ⟨ownQueue, _, apart⟩ := List.nodup_append'.mp sound.distinct
    -- A call is in the queue or in the log, never in both.
    have notLogged : id ∉ server.log.map Prod.fst := fun logged =>
      apart (List.mem_map_of_mem member) logged
    have fewer : (before ++ after).Sublist server.queue := by
      rw [waiting]
      exact (List.Sublist.refl before).append (List.sublist_cons_self _ _)
    refine sound_returned sound invoked waits nofun (fun _ => notLogged) fewer (List.Sublist.refl _)
      (not_mem_of_nodup (waiting ▸ ownQueue)) ?_
    rw [List.mem_map]
    rintro ⟨entry, isReply, rfl⟩
    obtain ⟨⟨other, logged⟩, _⟩ := sound.replied entry isReply
    exact notLogged (List.mem_map_of_mem logged)
  | turnAway id op fresh =>
    have invoked := sound_invoked sound fresh op
    have isNew : .invoked id op ∈ server.history ++ [.invoked id op] :=
      List.mem_append_right _ (List.mem_singleton.mpr rfl)
    have waits (reply : Option Reply) : .returned id reply ∉ server.history ++
        [.invoked id op] := by
      intro returned
      exact sound.notReturned fresh reply (by simpa using returned)
    have noReply : id ∉ server.replies.map Prod.fst := by
      rw [List.mem_map]
      rintro ⟨entry, isReply, rfl⟩
      obtain ⟨⟨other, logged⟩, _⟩ := sound.replied entry isReply
      exact sound.notLogged fresh (List.mem_map_of_mem logged)
    -- The call is invoked and returns in the same step.
    have returned : Sound answers initial
        { server with history := server.history ++ [.invoked id op] ++ [.returned id none] } :=
      sound_returned invoked isNew waits nofun (fun _ => sound.notLogged fresh)
        (List.Sublist.refl _)
        (List.Sublist.refl _) (sound.notQueued fresh) noReply
    rwa [List.append_assoc] at returned

theorem linearizable (reached : Relation.ReflTransGen (Step answers) (start initial) server) :
    Linearizable answers initial server.history server.log := by
  have sound : Sound answers initial server := by
    induction reached with
    | refl => exact sound_start initial
    | tail _ taken ih => exact sound_step ih taken
  exact ⟨⟨_, sound.legal⟩, (List.nodup_append'.mp sound.distinct).2.1, sound.logged,
    sound.effective, sound.failed, sound.once,
    sound.ordered⟩

end Invariant
end H3llo.Linear
