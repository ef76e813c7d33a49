import H3llo.Net.Address
import H3llo.Retry
import H3llo.Udp.Receive

/-! From a batch of packets to transmits with segmentation offload.

A batch is split into consecutive runs of packets of one size. Each run is one transmit,
which the kernel or the device cuts at every segment size. What the socket and its driver
do is an input.
-/

set_option autoImplicit false

namespace H3llo.Udp
open H3llo.Net

/-! ## Errors of a send -/

-- Values of Linux.
def eio : Int := 5
def emsgsize : Int := 90
def enobufs : Int := 105

def isNonFatalSendError (error : IoError) (usedGso : Bool) : Bool :=
  let nonFatalKind :=
    match error.kind with
    | .connectionRefused | .connectionReset | .connectionAborted | .hostUnreachable
    | .networkUnreachable | .networkDown
    | .addrNotAvailable | .invalidInput | .timedOut => true
    | .interrupted | .wouldBlock | .other => false
  nonFatalKind || (error.rawOsError = some emsgsize || error.rawOsError = some enobufs) ||
    (usedGso && error.rawOsError = some eio)

/-- One attempt to send: the wait for the socket fails, or the send itself has a result. -/
inductive Attempt where
  | unwritable (error : IoError)
  | sent
  | failed (error : IoError)
  deriving DecidableEq, Repr

def Attempt.failure : Attempt → Option IoError
  | .failed error => some error
  | .unwritable _ | .sent => none

/-! ## One batch -/

structure Transmit where
  destination : SocketAddr
  contents : List UInt8
  segmentSize : Nat
  deriving DecidableEq, Repr

def Transmit.segments (transmit : Transmit) : List (List UInt8) :=
  chunks transmit.segmentSize transmit.contents

structure SendEnv where
  enableOffload : Bool
  maxGsoSegments : Nat → Nat
  attempts : Nat → List Attempt

def SendEnv.maxSegs (env : SendEnv) (index : Nat) : Nat :=
  if env.enableOffload then env.maxGsoSegments index else 1

def maxUdpPayload (dest : SocketAddr) : Nat :=
  match dest.ip with
  | .v4 _ => 65535 - 20 - 8
  | .v6 _ => 65535 - 8

def maxSegsRun (maxSegs payload segmentSize : Nat) : Nat :=
  max (min maxSegs (payload / segmentSize)) 1

/-- Packets of one size join the buffer; the others are left. -/
def accumulate (segmentSize limit : Nat) :
    List (List UInt8) → List UInt8 → List UInt8 × List (List UInt8)
  | [], gsoBuf => (gsoBuf, [])
  | packet :: rest, gsoBuf =>
      if packet.length = segmentSize ∧ gsoBuf.length / segmentSize < limit then
        accumulate segmentSize limit rest (gsoBuf ++ packet)
      else (gsoBuf, packet :: rest)

/-- How the loop over a batch ends. -/
inductive Outcome where
  | done
  /-- The rest of the batch is dropped. -/
  | dropped (failing : Transmit) (error : IoError)
  /-- The actor returns an error. -/
  | failed (failing : Transmit) (error : IoError)
  | unwritable (failing : Transmit) (error : IoError)
  /-- The socket has come to no result for the transmit. -/
  | waiting (pending : Transmit)
  /-- Division by an empty segment. -/
  | panicked
  deriving DecidableEq, Repr

namespace Outcome

def unsent : Outcome → Option Transmit
  | .done | .panicked => none
  | .dropped failing _ | .failed failing _ | .unwritable failing _ => some failing
  | .waiting pending => some pending

def continues : Outcome → Bool
  | .done | .dropped .. => true
  | .failed .. | .unwritable .. | .waiting _ | .panicked => false

end Outcome

structure Sending where
  /-- Transmits that succeeded, in order. -/
  sent : List Transmit
  outcome : Outcome
  deriving DecidableEq, Repr

def Sending.transmits (sending : Sending) : List Transmit :=
  sending.sent ++ sending.outcome.unsent.toList

/-- Sends a transmit; `later` is what the loop does if this succeeds. -/
def sendTransmit (env : SendEnv) (index : Nat) (transmit : Transmit)
    (later : Option Sending) : Option Sending :=
  match retryOnTransient Attempt.failure (env.attempts index) with
  | none => some ⟨[], .waiting transmit⟩
  | some .sent => later.map fun sending => { sending with sent := transmit :: sending.sent }
  | some (.unwritable error) => some ⟨[], .unwritable transmit error⟩
  | some (.failed error) =>
      if isNonFatalSendError error (decide (transmit.segmentSize < transmit.contents.length)) then
        some ⟨[], .dropped transmit error⟩
      else some ⟨[], .failed transmit error⟩

/-- The loop over the packets of one batch, which starts with the transmit number `index`. `fuel`
bounds its iterations. -/
def sendPackets (env : SendEnv) (dest : SocketAddr) :
    (fuel index : Nat) → (packets : List (List UInt8)) → Option Sending
  | _, _, [] => some ⟨[], .done⟩
  | 0, _, _ :: _ => none
  | fuel + 1, index, first :: rest =>
      let segmentSize := first.length
      if segmentSize = 0 then some ⟨[], .panicked⟩
      else
        -- The driver may switch the offload off, so the limit is read for every transmit.
        let limit := maxSegsRun (env.maxSegs index) (maxUdpPayload dest) segmentSize
        let (gsoBuf, left) := accumulate segmentSize limit (first :: rest) []
        sendTransmit env index ⟨dest, gsoBuf, segmentSize⟩
          (sendPackets env dest fuel (index + 1) left)

/-- The loop over batches; a fatal error ends it. -/
def sendBatches (env : SendEnv) :
    (index : Nat) → List (SocketAddr × List (List UInt8)) → List Sending
  | _, [] => []
  | index, (dest, packets) :: rest =>
      match sendPackets env dest packets.length index packets with
      | none => []
      | some sending =>
          if sending.outcome.continues then
            sending :: sendBatches env (index + sending.transmits.length) rest
          else [sending]

/-! ## Runs of one size -/

theorem chunks_append {size : Nat} (positive : 0 < size) {piece : List UInt8}
    (whole : piece.length = size) (rest : List UInt8) :
    chunks size (piece ++ rest) = piece :: chunks size rest := by
  have more : ¬ (size = 0 ∨ piece ++ rest = []) := by
    rintro (zero | empty)
    · omega
    · rw [(List.append_eq_nil_iff.mp empty).1, List.length_nil] at whole
      omega
  rw [chunks, if_neg more, ← whole, List.take_left, List.drop_left]

theorem chunks_flatten_run {size : Nat} (positive : 0 < size) {run : List (List UInt8)}
    (same : ∀ packet ∈ run, packet.length = size) : chunks size run.flatten = run := by
  induction run with
  | nil => simp [chunks]
  | cons packet later ih =>
    obtain ⟨whole, rest⟩ := List.forall_mem_cons.mp same
    rw [List.flatten_cons, chunks_append positive whole, ih rest]

theorem length_flatten_run {size : Nat} {run : List (List UInt8)}
    (same : ∀ packet ∈ run, packet.length = size) : run.flatten.length = run.length * size := by
  induction run with
  | nil => simp
  | cons packet later ih =>
    obtain ⟨whole, rest⟩ := List.forall_mem_cons.mp same
    rw [List.flatten_cons, List.length_append, whole, ih rest, List.length_cons, Nat.succ_mul,
      Nat.add_comm]

/-- The buffer holds `count` packets before the loop. -/
theorem accumulate_spec {size : Nat} (limit : Nat) (positive : 0 < size)
    (packets : List (List UInt8)) {count : Nat} {gsoBuf : List UInt8}
    (full : gsoBuf.length = count * size) :
    ∃ run left, accumulate size limit packets gsoBuf = (gsoBuf ++ run.flatten, left) ∧
      packets = run ++ left ∧
      (∀ packet ∈ run, packet.length = size) ∧ (run ≠ [] → count + run.length ≤ limit) := by
  induction packets generalizing count gsoBuf with
  | nil => exact ⟨[], [], by simp [accumulate], rfl, by simp, by simp⟩
  | cons packet rest ih =>
    by_cases joins : packet.length = size ∧ gsoBuf.length / size < limit
    · have next : (gsoBuf ++ packet).length = (count + 1) * size := by
        rw [List.length_append, full, joins.1, Nat.succ_mul]
      obtain ⟨run, left, result, split, same, bounded⟩ := ih next
      refine ⟨packet :: run, left, ?_, by rw [split, List.cons_append],
        List.forall_mem_cons.mpr ⟨joins.1, same⟩, fun _ => ?_⟩
      · rw [accumulate, if_pos joins, result, List.flatten_cons, List.append_assoc]
      · have room := joins.2
        rw [full, Nat.mul_div_cancel _ positive] at room
        rw [List.length_cons]
        by_cases empty : run = []
        · rw [empty, List.length_nil]
          omega
        · have := bounded empty
          omega
    · exact ⟨[], packet :: rest, by rw [accumulate, if_neg joins]; simp, rfl, by simp, by simp⟩

theorem accumulate_first {limit : Nat} (allowed : 0 < limit) {first : List UInt8}
    (nonempty : first ≠ []) (rest : List (List UInt8)) :
    ∃ run left, accumulate first.length limit (first :: rest) [] = ((first :: run).flatten, left) ∧
      rest = run ++ left ∧
      (∀ packet ∈ first :: run, packet.length = first.length) ∧ (first :: run).length ≤ limit := by
  have positive : 0 < first.length := List.length_pos_of_ne_nil nonempty
  have joins : first.length = first.length ∧ ([] : List UInt8).length / first.length < limit := by
    simp [allowed]
  obtain ⟨run, left, result, split, same, bounded⟩ :=
    accumulate_spec limit positive rest (Nat.one_mul first.length).symm
  refine ⟨run, left, ?_, split, List.forall_mem_cons.mpr ⟨rfl, same⟩, ?_⟩
  · rw [accumulate, if_pos joins, List.nil_append, result, List.flatten_cons]
  · rw [List.length_cons]
    by_cases empty : run = []
    · rw [empty, List.length_nil]
      omega
    · have := bounded empty
      omega

/-! ## Faithful sending -/

def udpLimit : IpAddr → Nat
  | .v4 _ => 65507
  | .v6 _ => 65527

/-- Nonempty segments of one size, within the limits of the device and of the protocol. -/
structure Transmit.WellFormed (env : SendEnv) (dest : SocketAddr) (index : Nat)
    (transmit : Transmit) : Prop where
  destination : transmit.destination = dest
  positive : 0 < transmit.segmentSize
  uniform : ∀ segment ∈ transmit.segments, segment.length = transmit.segmentSize
  nonempty : transmit.segments ≠ []
  counted : transmit.segments.length ≤ env.maxGsoSegments index
  single : env.enableOffload = false → transmit.segments.length = 1
  fits : transmit.contents.length ≤ udpLimit dest.ip ∨ transmit.segments.length = 1

/-- What the socket comes to for the transmit number `index`. -/
def SendEnv.Answers (env : SendEnv) (index : Nat) (answer : Attempt) : Prop :=
  Settles Attempt.failure (env.attempts index) answer

/-- Every attempt for the transmit so far was one to repeat. -/
def SendEnv.Blocks (env : SendEnv) (index : Nat) : Prop :=
  ∀ attempt ∈ env.attempts index, Passing Attempt.failure attempt

/-- A failure of this destination or of this size, after which the socket still works. On Linux
90 is EMSGSIZE and 105 ENOBUFS; segments that the device does not cut make EIO, which is 5. -/
def NonFatal (error : IoError) (transmit : Transmit) : Prop :=
  error.kind ∈ [ErrorKind.connectionRefused, .connectionReset, .connectionAborted,
    .hostUnreachable, .networkUnreachable, .networkDown, .addrNotAvailable, .invalidInput,
    .timedOut] ∨
  error.rawOsError ∈ [some 90, some 105] ∨
  error.rawOsError = some 5 ∧ transmit.segmentSize < transmit.contents.length

/-- What the socket has answered for the transmit number `index`, with which the loop ends. -/
def Outcome.Explained (env : SendEnv) (index : Nat) : Outcome → Prop
  | .done => True
  | .dropped failing error => env.Answers index (.failed error) ∧ NonFatal error failing
  | .failed failing error => env.Answers index (.failed error) ∧ ¬ NonFatal error failing
  | .unwritable _ error => env.Answers index (.unwritable error)
  | .waiting _ => env.Blocks index
  | .panicked => False

/-- The transmits carry the packets of the batch in order, all of them or up to the one that
does not succeed. -/
structure Faithful (env : SendEnv) (dest : SocketAddr) (index : Nat) (packets : List (List UInt8))
    (sending : Sending) : Prop where
  wellFormed : ∀ (i : Nat) (transmit : Transmit), sending.transmits[i]? = some transmit →
    transmit.WellFormed env dest (index + i)
  succeeded : ∀ i < sending.sent.length, env.Answers (index + i) .sent
  explained : sending.outcome.Explained env (index + sending.sent.length)
  complete : sending.outcome.unsent = none → packets = sending.sent.flatMap Transmit.segments
  cut : ∀ failing, sending.outcome.unsent = some failing →
    ∃ rest, packets = sending.sent.flatMap Transmit.segments ++ (failing.segments ++ rest)

theorem isNonFatalSendError_iff {error : IoError} {transmit : Transmit} :
    isNonFatalSendError error (decide (transmit.segmentSize < transmit.contents.length)) = true ↔
      NonFatal error transmit := by
  unfold isNonFatalSendError NonFatal
  obtain ⟨kind, raw⟩ := error
  cases kind
  case interrupted | wouldBlock | other =>
    simp [and_comm]
    rfl
  all_goals simp

variable {env : SendEnv} {dest : SocketAddr} {index : Nat}

theorem Faithful.nil : Faithful env dest index [] ⟨[], .done⟩ where
  wellFormed i transmit found := by simp [Sending.transmits, Outcome.unsent] at found
  succeeded i less := absurd less (Nat.not_lt_zero i)
  explained := trivial
  complete _ := rfl
  cut failing found := by cases found

theorem Faithful.ended {transmit : Transmit} {left : List (List UInt8)} {outcome : Outcome}
    (formed : transmit.WellFormed env dest index) (unsent : outcome.unsent = some transmit)
    (explained : outcome.Explained env index) :
    Faithful env dest index (transmit.segments ++ left) ⟨[], outcome⟩ where
  wellFormed i other found := by
    rw [Sending.transmits, unsent] at found
    obtain ⟨rfl, rfl⟩ : i = 0 ∧ transmit = other := by
      cases i with
      | zero => simpa using found
      | succ i => simp at found
    exact formed
  succeeded i less := absurd less (Nat.not_lt_zero i)
  explained := explained
  complete none := by rw [unsent] at none; cases none
  cut failing found := by
    rw [unsent, Option.some.injEq] at found
    subst found
    exact ⟨left, rfl⟩

theorem Faithful.cons {transmit : Transmit} {left : List (List UInt8)} {sending : Sending}
    (formed : transmit.WellFormed env dest index) (sent : env.Answers index .sent)
    (later : Faithful env dest (index + 1) left sending) :
    Faithful env dest index (transmit.segments ++ left)
      { sending with sent := transmit :: sending.sent } where
  wellFormed i other found := by
    cases i with
    | zero =>
      obtain rfl : transmit = other := by simpa [Sending.transmits] using found
      exact formed
    | succ i =>
      rw [show index + (i + 1) = index + 1 + i by omega]
      exact later.wellFormed i other (by simpa [Sending.transmits] using found)
  succeeded i less := by
    cases i with
    | zero => exact sent
    | succ i =>
      rw [show index + (i + 1) = index + 1 + i by omega]
      exact later.succeeded i (Nat.lt_of_succ_lt_succ less)
  explained := by
    have explained := later.explained
    rwa [Nat.add_assoc, Nat.add_comm 1] at explained
  complete none := by rw [List.flatMap_cons, ← later.complete none]
  cut failing found := by
    obtain ⟨rest, split⟩ := later.cut failing found
    exact ⟨rest, by rw [List.flatMap_cons, List.append_assoc, ← split]⟩

theorem maxUdpPayload_eq (dest : SocketAddr) : maxUdpPayload dest = udpLimit dest.ip := rfl

theorem wellFormed_run (positive : 1 ≤ env.maxGsoSegments index) {first : List UInt8}
    (nonempty : first ≠ []) {run : List (List UInt8)}
    (same : ∀ packet ∈ first :: run, packet.length = first.length)
    (bounded : (first :: run).length ≤
      maxSegsRun (env.maxSegs index) (maxUdpPayload dest) first.length) :
    (⟨dest, (first :: run).flatten, first.length⟩ : Transmit).segments = first :: run ∧
      (⟨dest, (first :: run).flatten, first.length⟩ : Transmit).WellFormed env dest index := by
  have size : 0 < first.length := List.length_pos_of_ne_nil nonempty
  have some : 0 < (first :: run).length := Nat.succ_pos _
  have segments : (⟨dest, (first :: run).flatten, first.length⟩ : Transmit).segments =
      first :: run := chunks_flatten_run size same
  have limit : env.maxSegs index ≤ env.maxGsoSegments index := by
    unfold SendEnv.maxSegs
    split
    · exact Nat.le_refl _
    · exact positive
  unfold maxSegsRun at bounded
  refine ⟨segments, rfl, size, ?_, ?_, ?_, ?_, ?_⟩
  · rwa [segments]
  · rw [segments]
    exact List.cons_ne_nil _ _
  · rw [segments]
    omega
  · intro disabled
    have one : env.maxSegs index = 1 := by simp [SendEnv.maxSegs, disabled]
    rw [segments]
    omega
  · rw [segments, length_flatten_run same, ← maxUdpPayload_eq]
    by_cases single : (first :: run).length = 1
    · exact .inr single
    · have several : (first :: run).length ≤ maxUdpPayload dest / first.length := by omega
      exact .inl ((Nat.le_div_iff_mul_le size).mp several)

theorem sendTransmit_faithful {transmit : Transmit} {left : List (List UInt8)} {later : Sending}
    (formed : transmit.WellFormed env dest index)
    (faithful : Faithful env dest (index + 1) left later) :
    ∃ sending, sendTransmit env index transmit (some later) = some sending ∧
      Faithful env dest index (transmit.segments ++ left) sending := by
  unfold sendTransmit
  cases answer : retryOnTransient Attempt.failure (env.attempts index) with
  | none => exact ⟨_, rfl, .ended formed rfl (retryOnTransient_eq_none.mp answer)⟩
  | some attempt =>
    have answers : env.Answers index attempt := retryOnTransient_eq_some.mp answer
    cases attempt with
    | sent => exact ⟨_, rfl, .cons formed answers faithful⟩
    | unwritable error => exact ⟨_, rfl, .ended formed rfl answers⟩
    | failed error =>
      by_cases nonFatal : NonFatal error transmit
      · refine ⟨⟨[], .dropped transmit error⟩, ?_, .ended formed rfl ⟨answers, nonFatal⟩⟩
        exact if_pos (isNonFatalSendError_iff.mpr nonFatal)
      · refine ⟨⟨[], .failed transmit error⟩, ?_, .ended formed rfl ⟨answers, nonFatal⟩⟩
        exact if_neg fun isNonFatal => nonFatal (isNonFatalSendError_iff.mp isNonFatal)

theorem sendPackets_cons (dest : SocketAddr) (positive : 1 ≤ env.maxGsoSegments index)
    {first : List UInt8} (nonempty : first ≠ []) (rest : List (List UInt8)) :
    ∃ transmit left, first :: rest = transmit.segments ++ left ∧ left.length ≤ rest.length ∧
      transmit.WellFormed env dest index ∧
      ∀ fuel, sendPackets env dest (fuel + 1) index (first :: rest) =
        sendTransmit env index transmit (sendPackets env dest fuel (index + 1) left) := by
  have allowed : 0 < maxSegsRun (env.maxSegs index) (maxUdpPayload dest) first.length := by
    unfold maxSegsRun
    omega
  have size : first.length ≠ 0 := fun zero => nonempty (List.length_eq_zero_iff.mp zero)
  obtain ⟨run, left, joined, split, same, bounded⟩ := accumulate_first allowed nonempty rest
  obtain ⟨segments, formed⟩ := wellFormed_run positive nonempty same bounded
  refine ⟨_, left, ?_, ?_, formed, fun fuel => ?_⟩
  · rw [segments, split, List.cons_append]
  · rw [split, List.length_append]
    omega
  · simp only [sendPackets, if_neg size, joined]

theorem sendPackets_faithful (positive : ∀ index, 1 ≤ env.maxGsoSegments index)
    (dest : SocketAddr) (bound : Nat) :
    ∀ (packets : List (List UInt8)) (index : Nat), packets.length ≤ bound →
      (∀ packet ∈ packets, packet ≠ []) →
      ∃ sending, (∀ fuel, packets.length ≤ fuel → sendPackets env dest fuel index packets =
        some sending) ∧
        Faithful env dest index packets sending := by
  induction bound with
  | zero =>
    intro packets index short _
    obtain rfl := List.eq_nil_of_length_eq_zero (Nat.le_zero.mp short)
    exact ⟨⟨[], .done⟩, fun fuel _ => by cases fuel <;> rfl, .nil⟩
  | succ bound ih =>
    intro packets index short nonempty
    cases packets with
    | nil => exact ⟨⟨[], .done⟩, fun fuel _ => by cases fuel <;> rfl, .nil⟩
    | cons first rest =>
      obtain ⟨transmit, left, split, fewer, formed, iterates⟩ :=
        sendPackets_cons dest (positive index) (nonempty first List.mem_cons_self) rest
      have others : ∀ packet ∈ left, packet ≠ [] := fun packet member =>
        nonempty packet (split ▸ List.mem_append_right _ member)
      obtain ⟨later, remaining, faithful⟩ :=
        ih left (index + 1) (Nat.le_trans fewer (Nat.le_of_succ_le_succ short)) others
      obtain ⟨sending, result, faithful⟩ := sendTransmit_faithful formed faithful
      refine ⟨sending, fun fuel le => ?_, split ▸ faithful⟩
      obtain ⟨less, rfl⟩ := Nat.exists_eq_add_of_lt le
      rw [iterates, remaining _ (Nat.le_trans fewer (Nat.le_add_right _ _)), result]

theorem accumulate_suffix (size limit : Nat) (packets : List (List UInt8)) (gsoBuf : List UInt8) :
    (accumulate size limit packets gsoBuf).2 <:+ packets := by
  induction packets generalizing gsoBuf with
  | nil => exact List.suffix_refl []
  | cons packet rest ih =>
    rw [accumulate]
    split
    · exact (ih (gsoBuf ++ packet)).trans (List.suffix_cons packet rest)
    · exact List.suffix_refl _

theorem nil_mem_of_panicked {fuel : Nat} {packets : List (List UInt8)} {sending : Sending}
    (result : sendPackets env dest fuel index packets = some sending)
    (panicked : sending.outcome = .panicked) : [] ∈ packets := by
  induction fuel generalizing index packets sending with
  | zero =>
    cases packets with
    | nil =>
      cases result
      cases panicked
    | cons first rest => cases result
  | succ fuel ih =>
    cases packets with
    | nil =>
      cases result
      cases panicked
    | cons first rest =>
      simp only [sendPackets] at result
      split at result
      next empty => exact List.mem_cons.mpr (.inl (List.length_eq_zero_iff.mp empty).symm)
      next =>
        have suffix := accumulate_suffix first.length
          (maxSegsRun (env.maxSegs index) (maxUdpPayload dest) first.length) (first :: rest) []
        unfold sendTransmit at result
        split at result
        next => cases result; cases panicked
        next =>
          obtain ⟨later, remaining, rfl⟩ := Option.map_eq_some_iff.mp result
          exact suffix.subset (ih remaining panicked)
        next => cases result; cases panicked
        next => split at result <;> cases result <;> cases panicked

theorem Faithful.dropped_iff {packets : List (List UInt8)} {sending : Sending}
    (faithful : Faithful env dest index packets sending) {failing : Transmit} {error : IoError} :
    sending.outcome = .dropped failing error ↔ sending.outcome.unsent = some failing ∧
      env.Answers (index + sending.sent.length) (.failed error) ∧ NonFatal error failing := by
  have explained := faithful.explained
  constructor
  · intro dropped
    rw [dropped] at explained ⊢
    exact ⟨rfl, explained⟩
  · rintro ⟨unsent, answers, nonFatal⟩
    cases outcome : sending.outcome with
    | done | panicked => simp [outcome, Outcome.unsent] at unsent
    | dropped other cause =>
      rw [outcome] at explained unsent
      cases unsent
      cases explained.1.unique answers
      rfl
    | failed other cause =>
      rw [outcome] at explained unsent
      cases unsent
      cases explained.1.unique answers
      exact absurd nonFatal explained.2
    | unwritable other cause =>
      rw [outcome] at explained
      cases Settles.unique explained answers
    | waiting pending =>
      rw [outcome] at explained
      obtain ⟨passing, later, attempts, _, settled⟩ := answers
      refine absurd (explained (.failed error) ?_) settled
      rw [attempts]
      exact List.mem_append_right _ List.mem_cons_self

theorem Faithful.done {packets : List (List UInt8)} {sending : Sending}
    (faithful : Faithful env dest index packets sending)
    (succeeds : ∀ i < sending.transmits.length, env.Answers (index + i) .sent) :
    sending.outcome = .done := by
  have explained := faithful.explained
  have last (unsent : sending.outcome.unsent ≠ none) :
      env.Answers (index + sending.sent.length) .sent := by
    obtain ⟨failing, isFailing⟩ := Option.ne_none_iff_exists'.mp unsent
    exact succeeds _ (by simp [Sending.transmits, isFailing])
  cases outcome : sending.outcome with
  | done => rfl
  | panicked =>
    rw [outcome] at explained
    exact explained.elim
  | dropped failing error | failed failing error =>
    rw [outcome] at explained last
    cases explained.1.unique (last (Option.some_ne_none _))
  | unwritable failing error =>
    rw [outcome] at explained last
    cases Settles.unique explained (last (Option.some_ne_none _))
  | waiting pending =>
    rw [outcome] at explained last
    obtain ⟨passing, later, attempts, _, settled⟩ := last (Option.some_ne_none _)
    refine absurd (explained .sent ?_) settled
    rw [attempts]
    exact List.mem_append_right _ List.mem_cons_self

/-- For every batch of nonempty packets the loop ends after at most one iteration for each packet
and does not divide by zero. Its transmits are within the limits and carry the packets in order:
all of them if all sends succeed, and otherwise those before the first transmit that does not. If
the socket refuses a transmit without harm, and only then, the rest of this batch is dropped, and
the loop goes on with the next batch. -/
theorem segmentation_faithful (env : SendEnv) (positive : ∀ index, 1 ≤ env.maxGsoSegments index)
    (dest : SocketAddr) (packets : List (List UInt8)) (nonempty : ∀ packet ∈ packets, packet ≠ [])
    (index : Nat) :
    ∃ sending, (∀ fuel, packets.length ≤ fuel →
        sendPackets env dest fuel index packets = some sending) ∧
      Faithful env dest index packets sending ∧ sending.outcome ≠ .panicked ∧
      ((∀ i < sending.transmits.length, env.Answers (index + i) .sent) →
        sending.outcome = .done ∧ sending.sent.flatMap Transmit.segments = packets) ∧
      (∀ failing error, sending.outcome = .dropped failing error ↔
        sending.outcome.unsent = some failing ∧
          env.Answers (index + sending.sent.length) (.failed error) ∧ NonFatal error failing) ∧
      ∀ failing error, sending.outcome = .dropped failing error →
        (∃ rest, packets = sending.sent.flatMap Transmit.segments ++ (failing.segments ++ rest)) ∧
        ∀ batches, sendBatches env index ((dest, packets) :: batches) =
          sending :: sendBatches env (index + sending.transmits.length) batches := by
  obtain ⟨sending, ends, faithful⟩ :=
    sendPackets_faithful positive dest packets.length packets index (Nat.le_refl _) nonempty
  refine ⟨sending, ends, faithful, ?_, fun succeeds => ?_, fun failing error => ?_, ?_⟩
  · intro panicked
    have explained := faithful.explained
    rw [panicked] at explained
    exact explained
  · have done := faithful.done succeeds
    exact ⟨done, (faithful.complete (by rw [done]; rfl)).symm⟩
  · exact faithful.dropped_iff
  · intro failing error dropped
    refine ⟨faithful.cut failing (by rw [dropped]; rfl), fun batches => ?_⟩
    rw [sendBatches, ends _ (Nat.le_refl _)]
    simp [dropped, Outcome.continues]

def mixedSizes : List (List UInt8) := [[1, 2], [3, 4], [5, 6, 7], [8, 9], [10, 11]]

def shrinkingDriver : SendEnv :=
  ⟨true, fun index => if index = 0 then 64 else 1, fun _ => [.failed ⟨.wouldBlock, none⟩, .sent]⟩

theorem shrinkingDriver_sends (index : Nat) : shrinkingDriver.Answers index .sent :=
  retryOnTransient_eq_some.mp rfl

theorem shrinkingDriver_positive (index : Nat) : 1 ≤ shrinkingDriver.maxGsoSegments index := by
  simp only [shrinkingDriver]
  split <;> decide

theorem segmentation_faithful_mixed : ∃ sending,
    sendPackets shrinkingDriver ⟨.v4 0xc0000201#32, 4433⟩ 5 0 mixedSizes = some sending ∧
      sending.sent.map Transmit.contents = [[1, 2, 3, 4], [5, 6, 7], [8, 9], [10, 11]] ∧
      sending.sent.flatMap Transmit.segments = mixedSizes := by
  obtain ⟨sending, ends, _, _, succeeds, _⟩ := segmentation_faithful shrinkingDriver
    shrinkingDriver_positive ⟨.v4 0xc0000201#32, 4433⟩ mixedSizes (by decide) 0
  have executed : (sendPackets shrinkingDriver ⟨.v4 0xc0000201#32, 4433⟩ 5 0 mixedSizes).map
      (fun sending => sending.sent.map Transmit.contents) =
        some [[1, 2, 3, 4], [5, 6, 7], [8, 9], [10, 11]] := by decide
  have result := ends 5 (by decide)
  rw [result, Option.map_some, Option.some.injEq] at executed
  exact ⟨sending, result, executed, (succeeds fun i _ => shrinkingDriver_sends _).2⟩

end H3llo.Udp
