import H3llo.Basis.Channel
import Mathlib.Algebra.Ring.Nat

/-! Packet counters and the accounting of sends.

Counters saturate at the largest 64-bit value. Waiting times of congested
channels are not counted here.
-/

set_option autoImplicit false

namespace H3llo

/-- The visible bytes of a packet buffer. -/
abbrev Packet := List UInt8

def u64Max : Nat := 2 ^ 64 - 1

def saturatingAdd (first second : Nat) : Nat := min (first + second) u64Max

inductive DropReason where
  | oversize | disallowedSource | sendError | quicError | channelClosed | invalidIpVersion
  | invalidFraming | noRoute | noPeerChannel | noHeadroom | queueFull | ttlExpired
  deriving DecidableEq, Repr

structure PktCounters where
  batches : Nat
  packets : Nat
  bytes : Nat
  deriving DecidableEq, Repr

def PktCounters.record (counters : PktCounters) (count totalBytes : Nat) : PktCounters where
  batches := saturatingAdd counters.batches 1
  packets := saturatingAdd counters.packets count
  bytes := saturatingAdd counters.bytes totalBytes

structure Stats where
  succeeded : PktCounters
  dropped : PktCounters
  dropReasons : DropReason → PktCounters

namespace Stats

def new : Stats := ⟨⟨0, 0, 0⟩, ⟨0, 0, 0⟩, fun _ => ⟨0, 0, 0⟩⟩

def recordSuccess (stats : Stats) (count totalBytes : Nat) : Stats :=
  { stats with succeeded := stats.succeeded.record count totalBytes }

def recordDrop (stats : Stats) (reason : DropReason) (count totalBytes : Nat) : Stats where
  succeeded := stats.succeeded
  dropped := stats.dropped.record count totalBytes
  dropReasons := Function.update stats.dropReasons reason
    ((stats.dropReasons reason).record count totalBytes)

end Stats

def batchStats (batch : List Packet) : Nat × Nat := (batch.length, (batch.map List.length).sum)

structure DataPlane where
  stats : Stats
  outlet : Outlet (List Packet)

namespace DataPlane

def recordDrop (plane : DataPlane) (reason : DropReason) (count totalBytes : Nat) : DataPlane :=
  { plane with stats := plane.stats.recordDrop reason count totalBytes }

def recordSuccess (plane : DataPlane) (count totalBytes : Nat) : DataPlane :=
  { plane with stats := plane.stats.recordSuccess count totalBytes }

def sendWithBackpressure (accepts : Nat → Sender → Bool) (plane : DataPlane) (tx : Sender)
    (batch : List Packet) : Bool × DataPlane :=
  -- A full channel delays the send and does not fail it.
  let (placed, outlet) := plane.outlet.send accepts tx batch
  (placed, { plane with outlet })

def sendAndRecord (accepts : Nat → Sender → Bool) (plane : DataPlane) (tx : Sender)
    (batch : List Packet) (count totalBytes : Nat) : Bool × DataPlane :=
  let (placed, plane) := plane.sendWithBackpressure accepts tx batch
  if placed then (true, plane.recordSuccess count totalBytes)
  else (false, plane.recordDrop .channelClosed count totalBytes)

def delivered (plane : DataPlane) : List (Sender × Packet) :=
  plane.outlet.sent.flatMap fun (tx, batch) => batch.map fun packet => (tx, packet)

@[simp] theorem delivered_recordDrop (plane : DataPlane) (reason : DropReason)
    (count totalBytes : Nat) :
    (plane.recordDrop reason count totalBytes).delivered = plane.delivered := rfl

@[simp] theorem dropReasons_recordDrop (plane : DataPlane) (reason other : DropReason)
    (count totalBytes : Nat) :
    (plane.recordDrop reason count totalBytes).stats.dropReasons other =
      if other = reason then (plane.stats.dropReasons other).record count totalBytes
      else plane.stats.dropReasons other := by
  by_cases same : other = reason
  · subst same
    simp [recordDrop, Stats.recordDrop]
  · simp [recordDrop, Stats.recordDrop, same]

@[simp] theorem stats_sendWithBackpressure (accepts : Nat → Sender → Bool) (plane : DataPlane)
    (tx : Sender) (batch : List Packet) :
    (plane.sendWithBackpressure accepts tx batch).2.stats = plane.stats :=
  rfl

theorem dropReasons_sendAndRecord (accepts : Nat → Sender → Bool) (plane : DataPlane)
    (tx : Sender) (batch : List Packet) (count totalBytes : Nat) {reason : DropReason}
    (other : reason ≠ .channelClosed) :
    (plane.sendAndRecord accepts tx batch count totalBytes).2.stats.dropReasons reason =
      plane.stats.dropReasons reason := by
  unfold sendAndRecord
  simp only
  split
  · rfl
  · rw [dropReasons_recordDrop, if_neg other, stats_sendWithBackpressure]

section Open

variable {accepts : Nat → Sender → Bool} (isOpen : ∀ attempt tx, accepts attempt tx = true)
include isOpen

theorem sendAndRecord_open (plane : DataPlane) (tx : Sender) (batch : List Packet)
    (count totalBytes : Nat) :
    plane.sendAndRecord accepts tx batch count totalBytes =
      (true, (plane.sendWithBackpressure accepts tx batch).2.recordSuccess count totalBytes) := by
  simp [sendAndRecord, sendWithBackpressure, Outlet.send_open isOpen]

theorem delivered_sendWithBackpressure (plane : DataPlane) (tx : Sender) (batch : List Packet) :
    (plane.sendWithBackpressure accepts tx batch).2.delivered =
      plane.delivered ++ batch.map fun packet => (tx, packet) := by
  simp [sendWithBackpressure, Outlet.send_open isOpen, delivered]

theorem delivered_sendAndRecord (plane : DataPlane) (tx : Sender) (batch : List Packet)
    (count totalBytes : Nat) :
    (plane.sendAndRecord accepts tx batch count totalBytes).2.delivered =
      plane.delivered ++ batch.map fun packet => (tx, packet) := by
  rw [sendAndRecord_open isOpen]
  exact delivered_sendWithBackpressure isOpen plane tx batch

end Open
end DataPlane
end H3llo
