import H3llo.Basis.Runs
import H3llo.Udp.Send

/-! From one UDP actor to the other.

The sender joins packets of one size into transmits that the device cuts into datagrams. The
network loses, repeats and reorders them. The receiving kernel joins datagrams of one sender
again, all of one size but the last one, and the receiver cuts what it reads at the size that
the kernel names. Neither end knows what the other one joined.
-/

set_option autoImplicit false

namespace H3llo.Udp
open H3llo.Net H3llo.Runs ConsumeBuffer

/-- What a read of the socket gives. -/
inductive ReadResult where
  | nothing
  | datagrams (addr : SocketAddr) (stride : Nat) (data : List UInt8)
  | failed (error : IoError)
  deriving DecidableEq, Repr

inductive RxPhase where
  | waiting
  | reading
  | finished (error : Option String)
  | panicked
  deriving DecidableEq, Repr

/-- `taken` is the number of buffers that the pool has handed out. -/
structure UdpRxActor (Buf : Type) where
  phase : RxPhase
  taken : Nat
  output : List (SocketAddr × List Buf)

/-- `accepted` tells whether the output channel takes the batch. -/
inductive RxInput where
  | readable (error : Option IoError)
  | stop
  | read (result : ReadResult) (accepted : Bool)
  deriving DecidableEq, Repr

namespace UdpRxActor

variable {Buf : Type} [ConsumeBuffer Buf]

omit [ConsumeBuffer Buf] in
def spawn : UdpRxActor Buf := ⟨.waiting, 0, []⟩

def handleRead (pool : Nat → Buf) (actor : UdpRxActor Buf) (result : ReadResult)
    (accepted : Bool) : UdpRxActor Buf :=
  match result with
  | .nothing => { actor with phase := .waiting }
  | .datagrams addr stride data =>
      if data.length = 0 then { actor with phase := .waiting }
      else
        match receiveBatch (fun index => pool (actor.taken + index)) stride data with
        | none => { actor with phase := .panicked }
        | some batch =>
            if accepted then
              { actor with
                taken := actor.taken + batch.length
                output := actor.output ++ [(addr, batch)] }
            else { actor with phase := .finished none }
  | .failed error =>
      if error.kind = .wouldBlock ∨ error.kind = .interrupted then { actor with phase := .waiting }
      else { actor with phase := .finished (some "receive UDP datagrams") }

def step (pool : Nat → Buf) (input : RxInput) (actor : UdpRxActor Buf) : Option (UdpRxActor Buf) :=
  match actor.phase, input with
  | .waiting, .readable none => some { actor with phase := .reading }
  | .waiting, .readable (some _) =>
      some { actor with phase := .finished (some "wait for UDP socket readability") }
  -- A stop is seen only while the actor waits.
  | .waiting, .stop => some { actor with phase := .finished none }
  | .reading, .read result accepted => some (actor.handleRead pool result accepted)
  | _, _ => none

def packets (actor : UdpRxActor Buf) : List (SocketAddr × Packet) :=
  actor.output.flatMap fun (addr, batch) => batch.map fun buf => (addr, visible buf)

end UdpRxActor

/-! ## What the kernel joins -/

/-- Datagrams that one read may hold: of the size of the first one, and a last one that may be
shorter. -/
def Coalesces : List Packet → Prop
  | [] => False
  | first :: rest =>
      first ≠ [] ∧ (∀ datagram ∈ (first :: rest).dropLast, datagram.length = first.length) ∧
      ∀ datagram ∈ rest, datagram ≠ [] ∧ datagram.length ≤ first.length

instance (group : List Packet) : Decidable (Coalesces group) :=
  match group with
  | [] => .isFalse id
  | _ :: _ => inferInstanceAs (Decidable (_ ∧ _ ∧ _))

/-- What happens at the receiving socket. -/
inductive Arrival where
  | idle (input : RxInput)
  /-- A datagram without payload, which is never joined with others. -/
  | empty (addr : SocketAddr) (accepted : Bool)
  | group (addr : SocketAddr) (datagrams : List Packet) (accepted : Bool)
  deriving DecidableEq, Repr

namespace Arrival

def input : Arrival → RxInput
  | .idle input => input
  | .empty addr accepted => .read (.datagrams addr 0 []) accepted
  | .group addr datagrams accepted =>
      .read (.datagrams addr (datagrams.headD []).length datagrams.flatten) accepted

def datagrams : Arrival → List (SocketAddr × Packet)
  | .idle _ => []
  | .empty addr _ => [(addr, [])]
  | .group addr datagrams _ => datagrams.map fun datagram => (addr, datagram)

/-- A datagram that leaves no room for a header in the largest buffer. -/
def Oversize : Arrival → Prop
  | .group _ datagrams _ => ∃ datagram ∈ datagrams, 65526 < datagram.length
  | .idle _ | .empty .. => False

instance : DecidablePred Oversize
  | .group .. => inferInstanceAs (Decidable (∃ _ ∈ _, _))
  | .idle _ | .empty .. => .isFalse id

def accepted : Arrival → Bool
  | .idle _ => true
  | .empty _ accepted | .group _ _ accepted => accepted

def carried (arrival : Arrival) : List (SocketAddr × Packet) :=
  if arrival.accepted ∧ ¬ arrival.Oversize then arrival.datagrams.filter fun item => item.2 ≠ []
  else []

/-- Only the two other kinds carry datagrams, and groups are joined as the kernel does. -/
def Possible : Arrival → Prop
  | .idle (.read (.datagrams ..) _) => False
  | .idle _ | .empty .. => True
  | .group _ datagrams _ => Coalesces datagrams

theorem carried_sublist (arrival : Arrival) : arrival.carried.Sublist arrival.datagrams := by
  unfold carried
  split
  · exact List.filter_sublist
  · exact List.nil_sublist _

end Arrival

theorem chunks_short {size : Nat} {piece : List UInt8} (nonempty : piece ≠ [])
    (short : piece.length ≤ size) : chunks size piece = [piece] := by
  have positive : 0 < piece.length := List.length_pos_of_ne_nil nonempty
  have more : ¬ (size = 0 ∨ piece = []) := by
    rintro (zero | empty)
    · omega
    · exact nonempty empty
  rw [chunks, if_neg more, List.take_of_length_le short, List.drop_of_length_le short]
  simp [chunks]

theorem chunks_group {size : Nat} (positive : 0 < size) {group : List Packet}
    (whole : ∀ datagram ∈ group.dropLast, datagram.length = size)
    (short : ∀ datagram ∈ group, datagram ≠ [] ∧ datagram.length ≤ size) :
    chunks size group.flatten = group := by
  induction group with
  | nil => simp [chunks]
  | cons first rest ih =>
    cases rest with
    | nil =>
      obtain ⟨nonempty, fits⟩ := short first List.mem_cons_self
      rw [List.flatten_singleton, chunks_short nonempty fits]
    | cons second later =>
      rw [List.dropLast_cons_cons] at whole
      rw [List.flatten_cons, chunks_append positive (whole first List.mem_cons_self)]
      rw [ih (fun datagram member => whole datagram (List.mem_cons_of_mem first member))
        fun datagram member => short datagram (List.mem_cons_of_mem first member)]

theorem chunks_coalesced {first : Packet} {rest : List Packet}
    (joined : Coalesces (first :: rest)) :
    chunks (min first.length (first :: rest).flatten.length) (first :: rest).flatten =
      first :: rest := by
  obtain ⟨nonempty, whole, short⟩ := joined
  have enough : first.length ≤ (first :: rest).flatten.length := by
    rw [List.flatten_cons, List.length_append]
    exact Nat.le_add_right _ _
  rw [Nat.min_eq_left enough]
  exact chunks_group (List.length_pos_of_ne_nil nonempty) whole
    (List.forall_mem_cons.mpr ⟨⟨nonempty, Nat.le_refl _⟩, short⟩)

/-! ## The receiver -/

namespace UdpRxActor

variable {Buf : Type} [ConsumeBuffer Buf] {pool : Nat → Buf} {actor next last : UdpRxActor Buf}

/-- What the consumer was given has room for a header in front of it. -/
def Roomy (actor : UdpRxActor Buf) : Prop :=
  ∀ batch ∈ actor.output, ∀ buf ∈ batch.2, headroomBytes ≤ headroom buf

theorem reading_of_read {result : ReadResult} {accepted : Bool}
    (taken : step pool (.read result accepted) actor = some next) :
    next = actor.handleRead pool result accepted := by
  cases phase : actor.phase with
  | reading =>
    simp only [step, phase, Option.some.injEq] at taken
    exact taken.symm
  | _ => simp [step, phase] at taken

theorem waiting_of_other {input : RxInput}
    (other : ∀ result accepted, input ≠ .read result accepted)
    (taken : step pool input actor = some next) :
    next.phase ≠ .panicked ∧ next.output = actor.output := by
  cases phase : actor.phase with
  | waiting =>
    cases input with
    | readable error =>
      cases error with
      | none =>
        simp only [step, phase, Option.some.injEq] at taken
        subst taken
        exact ⟨nofun, rfl⟩
      | some error =>
        simp only [step, phase, Option.some.injEq] at taken
        subst taken
        exact ⟨nofun, rfl⟩
    | stop =>
      simp only [step, phase, Option.some.injEq] at taken
      subst taken
      exact ⟨nofun, rfl⟩
    | read result accepted => exact absurd rfl (other result accepted)
  | reading =>
    cases input with
    | read result accepted => exact absurd rfl (other result accepted)
    | _ => simp [step, phase] at taken
  | _ => simp [step, phase] at taken

/-- What an arrival does: it is handed on, or it is too large and ends the actor. -/
structure Handles (arrival : Arrival) (actor next : UdpRxActor Buf) : Prop where
  roomy : next.Roomy
  panics : next.phase = .panicked ↔ arrival.Oversize
  packets : next.packets = actor.packets ++ arrival.carried

theorem Handles.silent {arrival : Arrival} (small : ¬ arrival.Oversize)
    (none : arrival.carried = []) (roomy : actor.Roomy) (alive : next.phase ≠ .panicked)
    (output : next.output = actor.output) : Handles arrival actor next where
  roomy := by rwa [Roomy, output]
  panics := iff_of_false alive small
  packets := by rw [none, List.append_nil, UdpRxActor.packets, output, UdpRxActor.packets]

theorem handles_group (reset : ∀ taken, headroom (pool taken) = 0) {addr : SocketAddr}
    {datagrams : List Packet} {accepted : Bool} (joined : Coalesces datagrams)
    (alive : actor.phase ≠ .panicked) (roomy : actor.Roomy)
    (taken : step pool (Arrival.group addr datagrams accepted).input actor = some next) :
    Handles (.group addr datagrams accepted) actor next := by
  cases datagrams with
  | nil => exact joined.elim
  | cons first rest =>
    have size : 0 < first.length := List.length_pos_of_ne_nil joined.1
    have long : first.length ≤ (first :: rest).flatten.length := by
      rw [List.flatten_cons, List.length_append]
      exact Nat.le_add_right _ _
    rw [reading_of_read taken, List.headD_cons, handleRead, if_neg (by omega)]
    have limit : maxPayload = 65526 := rfl
    -- no datagram is longer than the first one
    by_cases large : 65526 < first.length
    · have oversize : (Arrival.group addr (first :: rest) accepted).Oversize :=
        ⟨first, List.mem_cons_self, large⟩
      rw [receiveBatch_none (fun index => reset (actor.taken + index)) (by omega)]
      refine ⟨roomy, iff_of_true rfl oversize, ?_⟩
      rw [Arrival.carried, if_neg fun both => both.2 oversize, List.append_nil]
      rfl
    · have small : ¬ (Arrival.group addr (first :: rest) accepted).Oversize := by
        rintro ⟨datagram, member, oversize⟩
        rcases List.mem_cons.mp member with rfl | member
        · exact large oversize
        · have := (joined.2.2 datagram member).2
          omega
      obtain ⟨batch, received, contents, -, rooms⟩ :=
        receiveBatch_some (fun index => reset (actor.taken + index)) (Nat.lt_of_lt_of_le size long)
          size (by omega)
      rw [chunks_coalesced joined] at contents
      rw [received]
      cases accepted with
      | false =>
        exact .silent small (by simp [Arrival.carried, Arrival.accepted]) roomy (by simp) rfl
      | true =>
        refine ⟨?_, iff_of_false alive small, ?_⟩
        · exact List.forall_mem_append.mpr ⟨roomy, List.forall_mem_singleton.mpr rooms⟩
        · have full : ∀ datagram ∈ first :: rest, datagram ≠ [] :=
            List.forall_mem_cons.mpr
              ⟨joined.1, fun datagram member => (joined.2.2 datagram member).1⟩
          have carried : (Arrival.group addr (first :: rest) true).carried =
              (first :: rest).map fun datagram => (addr, datagram) := by
            rw [Arrival.carried, if_pos ⟨rfl, small⟩, Arrival.datagrams, List.filter_eq_self]
            intro item member
            obtain ⟨datagram, listed, rfl⟩ := List.mem_map.mp member
            exact decide_eq_true (full datagram listed)
          have tagged : (batch.map fun buf => (addr, visible buf)) =
              (first :: rest).map fun datagram => (addr, datagram) := by
            rw [← contents, List.map_map]
            rfl
          simp only [packets, if_true, List.flatMap_append, List.flatMap_singleton, tagged, carried]

theorem handles_step (reset : ∀ taken, headroom (pool taken) = 0) {arrival : Arrival}
    (possible : arrival.Possible) (alive : actor.phase ≠ .panicked) (roomy : actor.Roomy)
    (taken : step pool arrival.input actor = some next) : Handles arrival actor next := by
  cases arrival with
  | group addr datagrams accepted => exact handles_group reset possible alive roomy taken
  | empty addr accepted =>
    have none : (Arrival.empty addr accepted).carried = [] := by
      simp [Arrival.carried, Arrival.datagrams]
    rw [reading_of_read taken]
    exact .silent id none roomy (by simp [handleRead]) rfl
  | idle input =>
    have none : (Arrival.idle input).carried = [] := by simp [Arrival.carried, Arrival.datagrams]
    have kept (other : ∀ result accepted, input ≠ .read result accepted) :
        Handles (.idle input) actor next := by
      obtain ⟨alive, output⟩ := waiting_of_other other taken
      exact .silent id none roomy alive output
    cases input with
    | readable error => exact kept (by simp)
    | stop => exact kept (by simp)
    | read result accepted =>
      rw [reading_of_read taken]
      cases result with
      | nothing => exact .silent id none roomy (by simp [handleRead]) rfl
      | datagrams addr stride data => exact possible.elim
      | failed error =>
        rw [handleRead]
        split
        · exact .silent id none roomy (by simp) rfl
        · exact .silent id none roomy (by simp) rfl

/-- The receiver hands on what arrives, datagram by datagram, however the kernel joins it, and
ends at a datagram that is too large. -/
theorem handles_run (reset : ∀ taken, headroom (pool taken) = 0) {arrivals : List Arrival}
    (possible : ∀ arrival ∈ arrivals, arrival.Possible) (alive : actor.phase ≠ .panicked)
    (roomy : actor.Roomy)
    (executed : run (step pool) (arrivals.map Arrival.input) actor = some last) :
    last.Roomy ∧ (last.phase = .panicked ↔ ∃ arrival ∈ arrivals, arrival.Oversize) ∧
      last.packets = actor.packets ++ arrivals.flatMap Arrival.carried := by
  induction arrivals generalizing actor with
  | nil =>
    cases executed
    exact ⟨roomy, iff_of_false alive (by simp), (List.append_nil _).symm⟩
  | cons arrival rest ih =>
    obtain ⟨next, taken, remaining⟩ := Option.bind_eq_some_iff.mp executed
    obtain ⟨first, later⟩ := List.forall_mem_cons.mp possible
    have handles := handles_step reset first alive roomy taken
    by_cases panicked : next.phase = .panicked
    · -- an actor that has panicked takes no further input
      cases rest with
      | cons other rest => simp [run, step, panicked] at remaining
      | nil =>
        cases remaining
        refine ⟨handles.roomy, iff_of_true panicked ⟨arrival, List.mem_cons_self, ?_⟩, ?_⟩
        · exact handles.panics.mp panicked
        · rw [handles.packets, List.flatMap_singleton]
    · obtain ⟨rooms, panics, all⟩ := ih later panicked handles.roomy remaining
      have small : ¬ arrival.Oversize := fun oversize => panicked (handles.panics.mpr oversize)
      refine ⟨rooms, ?_, ?_⟩
      · rw [panics, List.exists_mem_cons_iff, or_iff_right small]
      · rw [all, handles.packets, List.append_assoc, List.flatMap_cons]

end UdpRxActor

/-! ## The sender -/

def wire (sendings : List Sending) : List (SocketAddr × Packet) :=
  (sendings.flatMap Sending.sent).flatMap fun transmit => transmit.segments.map fun segment =>
    (transmit.destination, segment)

def addressed (batches : List (SocketAddr × List Packet)) : List (SocketAddr × Packet) :=
  batches.flatMap fun (dest, packets) => packets.map fun packet => (dest, packet)

section Sender

variable {env : SendEnv} {dest : SocketAddr} {index : Nat}

theorem wire_cons (sending : Sending) (rest : List Sending) :
    wire (sending :: rest) = wire [sending] ++ wire rest := by
  simp [wire]

theorem wire_sending {packets : List Packet} {sending : Sending}
    (faithful : Faithful env dest index packets sending) :
    wire [sending] = (sending.sent.flatMap Transmit.segments).map fun segment =>
      (dest, segment) := by
  have destined : ∀ transmit ∈ sending.sent, transmit.destination = dest := by
    intro transmit member
    obtain ⟨i, found⟩ := List.mem_iff_getElem?.mp
      (List.mem_append_left sending.outcome.unsent.toList member)
    exact (faithful.wellFormed i transmit found).destination
  simp only [wire, List.flatMap_singleton]
  generalize sending.sent = sent at destined
  induction sent with
  | nil => rfl
  | cons transmit rest ih =>
    obtain ⟨here, later⟩ := List.forall_mem_cons.mp destined
    rw [List.flatMap_cons, ih later, here, List.flatMap_cons, List.map_append]

theorem wire_initial {packets : List Packet} {sending : Sending}
    (faithful : Faithful env dest index packets sending) :
    wire [sending] <+: packets.map fun packet => (dest, packet) := by
  rw [wire_sending faithful]
  apply List.IsPrefix.map
  cases unsent : sending.outcome.unsent with
  | none => rw [← faithful.complete unsent]
  | some failing =>
    obtain ⟨rest, split⟩ := faithful.cut failing unsent
    rw [split]
    exact List.prefix_append _ _

variable (positive : ∀ index, 1 ≤ env.maxGsoSegments index)
include positive

theorem wire_sendBatches {batches : List (SocketAddr × List Packet)}
    (nonempty : ∀ batch ∈ batches, ∀ packet ∈ batch.2, packet ≠ []) (index : Nat) :
    (wire (sendBatches env index batches)).Sublist (addressed batches) ∧
      ((∀ i, env.Answers i .sent) → wire (sendBatches env index batches) = addressed batches) := by
  induction batches generalizing index with
  | nil => exact ⟨.refl _, fun _ => rfl⟩
  | cons batch rest ih =>
    obtain ⟨first, later⟩ := List.forall_mem_cons.mp nonempty
    obtain ⟨dest, packets⟩ := batch
    obtain ⟨sending, ends, faithful⟩ :=
      sendPackets_faithful positive dest packets.length packets index (Nat.le_refl _) first
    have split : addressed ((dest, packets) :: rest) = (packets.map fun packet => (dest, packet)) ++
        addressed rest := rfl
    rw [split, sendBatches, ends _ (Nat.le_refl _)]
    simp only
    constructor
    · split
      · rw [wire_cons]
        exact (wire_initial faithful).sublist.append (ih later _).1
      · exact (wire_initial faithful).sublist.trans (List.sublist_append_left _ _)
    · intro succeeds
      have done : sending.outcome = .done := faithful.done fun i _ => succeeds _
      have whole : wire [sending] = packets.map fun packet => (dest, packet) := by
        rw [wire_sending faithful, ← faithful.complete (by rw [done]; rfl)]
      rw [if_pos (by rw [done]; rfl), wire_cons, whole, (ih later _).2 succeeds]

end Sender

/-! ## The link -/

def packetsAt (addr : SocketAddr) (tagged : List (SocketAddr × Packet)) : List Packet :=
  tagged.filterMap fun (other, packet) => if other = addr then some packet else none

theorem carried_sublist (arrivals : List Arrival) :
    (arrivals.flatMap Arrival.carried).Sublist (arrivals.flatMap Arrival.datagrams) := by
  induction arrivals with
  | nil => exact .refl _
  | cons arrival rest ih =>
    rw [List.flatMap_cons, List.flatMap_cons]
    exact arrival.carried_sublist.append ih

theorem packetsAt_carried {src : SocketAddr} {arrivals : List Arrival}
    (taken : ∀ arrival ∈ arrivals, arrival.accepted = true ∧ ¬ arrival.Oversize) :
    packetsAt src (arrivals.flatMap Arrival.carried) =
      (packetsAt src (arrivals.flatMap Arrival.datagrams)).filter (· ≠ []) := by
  have all : arrivals.flatMap Arrival.carried =
      (arrivals.flatMap Arrival.datagrams).filter fun item => item.2 ≠ [] := by
    rw [List.filter_flatMap]
    apply List.flatMap_congr
    intro arrival member
    rw [Arrival.carried, if_pos (taken arrival member)]
  rw [all, packetsAt, packetsAt, List.filterMap_filter, List.filter_filterMap]
  congr 1
  funext item
  by_cases own : item.1 = src
  · simp [own, Option.filter]
  · simp [own]

theorem nonempty_packetsAt {here : SocketAddr} {batches : List (SocketAddr × List Packet)}
    (nonempty : ∀ batch ∈ batches, ∀ packet ∈ batch.2, packet ≠ []) :
    ∀ packet ∈ packetsAt here (addressed batches), packet ≠ [] := by
  intro packet member
  obtain ⟨⟨dest, other⟩, listed, same⟩ := List.mem_filterMap.mp member
  obtain ⟨batch, given, isPacket⟩ := List.mem_flatMap.mp listed
  obtain ⟨own, inside, pair⟩ := List.mem_map.mp isPacket
  obtain ⟨-, same⟩ := Option.ite_none_right_eq_some.mp same
  cases same
  cases pair
  exact nonempty batch given _ inside

def sampleHere : SocketAddr := ⟨.v4 0xc0000201#32, 6635⟩

def sampleSrc : SocketAddr := ⟨.v4 0xc0000202#32, 40000⟩

def sampleBatches : List (SocketAddr × List Packet) :=
  [(sampleHere, [[1, 2], [3, 4]]), (sampleHere, [[5]])]

def sampleArrivals : List Arrival :=
  [.idle (.readable none), .group sampleSrc [[1, 2], [3, 4], [5]] true]

theorem sampleArrivals_possible : ∀ arrival ∈ sampleArrivals, arrival.Possible := by
  have joined : Coalesces [[1, 2], [3, 4], [5]] := by decide
  exact   List.forall_mem_cons.mpr ⟨trivial, List.forall_mem_singleton.mpr joined⟩

end H3llo.Udp
