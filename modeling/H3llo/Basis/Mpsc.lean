import Mathlib.Data.List.Basic

/-! Bounded channels with several senders and one receiver.

Values come out in the order in which they went in. A channel that is closed rejects
further sends but keeps what it holds, and its end is seen only when it is empty.
-/

set_option autoImplicit false

namespace H3llo

structure Mpsc (α : Type) where
  capacity : Nat
  queue : List α
  /-- The receiver has closed the channel, or is gone. -/
  closed : Bool
  senders : Nat
  /-- Values whose send succeeded, oldest first. -/
  accepted : List α
  /-- Values that the receiver has taken, oldest first. -/
  taken : List α

namespace Mpsc

variable {α : Type}

def new (capacity : Nat) : Mpsc α := ⟨capacity, [], false, 1, [], []⟩

/-- Whether the value is accepted, with the channel after it; `none` while the channel is full. -/
def send (value : α) (channel : Mpsc α) : Option (Bool × Mpsc α) :=
  if channel.senders = 0 then none
  else if channel.closed then some (false, channel)
  else if channel.queue.length < channel.capacity then
    some (true,
      { channel with queue := channel.queue ++ [value], accepted := channel.accepted ++ [value] })
  else none

/-- The next value, or the end; `none` while there is nothing to receive. -/
def recv (channel : Mpsc α) : Option (Option α × Mpsc α) :=
  match channel.queue with
  | value :: rest =>
      some (some value, { channel with queue := rest, taken := channel.taken ++ [value] })
  | [] => if channel.closed || channel.senders = 0 then some (none, channel) else none

def close (channel : Mpsc α) : Mpsc α := { channel with closed := true }

def cloneSender (channel : Mpsc α) : Option (Mpsc α) :=
  if channel.senders = 0 then none else some { channel with senders := channel.senders + 1 }

def dropSender (channel : Mpsc α) : Option (Mpsc α) :=
  if channel.senders = 0 then none else some { channel with senders := channel.senders - 1 }

def Conserves (channel : Mpsc α) : Prop := channel.accepted = channel.taken ++ channel.queue

variable {channel next : Mpsc α} {value : α}

theorem conserves_new (capacity : Nat) : (new capacity : Mpsc α).Conserves := rfl

theorem send_spec {accepted : Bool} (sent : channel.send value = some (accepted, next)) :
    (channel.Conserves → next.Conserves) ∧ next.closed = channel.closed ∧
    next.taken = channel.taken ∧
      (channel.closed = true → next = channel) := by
  unfold send at sent
  split at sent
  · cases sent
  split at sent
  next closed =>
    cases sent
    exact ⟨fun conserves => conserves, rfl, rfl, fun _ => rfl⟩
  next opened =>
    split at sent
    · cases sent
      refine ⟨fun conserves => ?_, rfl, rfl, fun closed => absurd closed opened⟩
      unfold Conserves at conserves ⊢
      rw [conserves, List.append_assoc]
    · cases sent

theorem recv_value (received : channel.recv = some (some value, next)) :
    (channel.Conserves → next.Conserves) ∧ next.taken = channel.taken ++ [value] ∧
    next.closed = channel.closed ∧
      next.accepted = channel.accepted := by
  unfold recv at received
  cases queue : channel.queue with
  | nil =>
    simp only [queue] at received
    split at received <;> cases received
  | cons first rest =>
    simp only [queue] at received
    cases received
    refine ⟨fun conserves => ?_, rfl, rfl, rfl⟩
    unfold Conserves at conserves ⊢
    rw [conserves, queue, List.append_assoc, List.singleton_append]

theorem recv_end (received : channel.recv = some (none, next)) :
    channel.queue = [] ∧ next = channel := by
  unfold recv at received
  cases queue : channel.queue with
  | nil =>
    simp only [queue] at received
    split at received
    · cases received
      exact ⟨rfl, rfl⟩
    · cases received
  | cons first rest =>
    simp only [queue] at received
    cases received

end Mpsc
end H3llo
