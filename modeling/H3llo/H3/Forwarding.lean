import H3llo.H3.Engine
import H3llo.Metrics
import H3llo.Net.Address

/-! The forwarding loop of an established connection.

What the QUIC library and the channels return is an input and may be anything. Two slots
hold what a full channel did not take. They are sampled before the branches of the loop
are awaited, and used again when a branch or the flush after it runs.
-/

set_option autoImplicit false

namespace H3llo.H3
open H3llo.Net H3llo.Runs H3llo.Udp ConsumeBuffer

/-- Result of placing a value into a channel without waiting. -/
inductive TrySend where
  | ok
  | full
  | closed
  deriving DecidableEq, Repr

/-! ## Packets -/

structure Ingest where
  length : Nat
  dgramRecvQueueFull : Bool
  accepted : Bool

def handleUdpRecv : List Ingest → Stats → Stats
  | [], counters => counters
  | packet :: rest, counters =>
      -- The oldest datagram gives way to a new one, if the packet holds one.
      let counters :=
        if packet.dgramRecvQueueFull then counters.recordDrop .queueFull 1 0 else counters
      handleUdpRecv rest <|
        if packet.accepted then counters else counters.recordDrop .quicError 1 packet.length

inductive DgramSend where
  | ok
  | done
  | failed
  deriving DecidableEq, Repr

section Buffers

variable {Buf : Type} [PrefixBuffer Buf]

def stripAll (codec : ConnectIpDatagramCodec) : List Buf → Stats → Option (List Buf × Stats)
  | [], counters => some ([], counters)
  | buf :: rest, counters =>
      match codec.strip buf with
      | none => none
      | some (false, _) =>
          stripAll codec rest (counters.recordDrop .invalidFraming 1 (visible buf).length)
      | some (true, stripped) =>
          (stripAll codec rest counters).map fun result => (stripped :: result.1, result.2)

/-- `datagrams` is what the library returns until it has no more or fails. -/
def collectRouterIngress (codec : ConnectIpDatagramCodec) (datagrams : List Buf)
    (counters : Stats) : Option (List Buf × Stats) :=
  (stripAll codec datagrams counters).map fun (batch, counters) =>
    (batch,
      if batch.length > 0 then
        counters.recordSuccess batch.length (batch.map fun buf => (visible buf).length).sum
      else counters)

def collectUdpSend (outgoing : List (Buf × SocketAddr)) : Option (SocketAddr × List Buf) :=
  outgoing.getLast?.map fun last => (last.2, outgoing.map Prod.fst)

def egressLoop (codec : ConnectIpDatagramCodec) :
    List (Buf × DgramSend) → (okPkts okBytes : Nat) → Stats → Stats
  | [], okPkts, okBytes, counters =>
      if okPkts > 0 then counters.recordSuccess okPkts okBytes else counters
  | (packet, answer) :: rest, okPkts, okBytes, counters =>
      let length := (visible packet).length
      if (codec.prepend packet).1 = false then
        egressLoop codec rest okPkts okBytes (counters.recordDrop .noHeadroom 1 length)
      else
        match answer with
        | .ok => egressLoop codec rest (okPkts + 1) (okBytes + length) counters
        | .done => egressLoop codec rest okPkts okBytes (counters.recordDrop .queueFull 1 length)
        | .failed => egressLoop codec rest okPkts okBytes (counters.recordDrop .quicError 1 length)

def handleRouterEgress (codec : ConnectIpDatagramCodec) (packets : List (Buf × DgramSend))
    (counters : Stats) : Stats :=
  egressLoop codec packets 0 0 counters

end Buffers

/-! ## The loop -/

/-- Where the loop is; the flags are the sampled slots. -/
inductive Point where
  | top
  | selecting (ingressPending sendPending : Bool)
  | flushing
  | exited (failure : Option String)
  /-- The connection is closed and its last packets are handed over. -/
  | finished (failure : Option String)
  | panicked
  deriving DecidableEq, Repr

structure Forwarder (Buf : Type) where
  point : Point
  codec : ConnectIpDatagramCodec
  rxCounters : Stats
  txCounters : Stats
  pendingIngress : Option (List Buf)
  pendingSend : Option (SocketAddr × List Buf)
  /-- Nonempty batches collected for the router, and those placed into its channel. -/
  collectedIngress : List (List Buf)
  placedIngress : List (List Buf)
  /-- Batches collected for the UDP sender, and those placed into its channel. -/
  collectedSend : List (SocketAddr × List Buf)
  placedSend : List (SocketAddr × List Buf)
  /-- Assignments to a slot that held a batch. -/
  overwrites : Nat

structure Received (Buf : Type) where
  packets : List Ingest
  polled : Except ConnectFailure ConnectProgress
  datagrams : List Buf

/-- A select branch, with what it meets. -/
inductive Branch (Buf : Type) where
  | udpRecv (received : Option (Received Buf)) (ingress : TrySend)
  | ingressPermit (granted : Bool)
  | egress (packets : Option (List (Buf × DgramSend)))
  | stop
  | sendPermit (granted : Bool)
  | timer
  | keepalive
  | ticker

inductive ForwardInput (Buf : Type) where
  | sample
  | branch (branch : Branch Buf)
  | flush (outgoing : List (Buf × SocketAddr)) (send : TrySend) (connClosed : Bool)
  | cleanup (outgoing : List (Buf × SocketAddr)) (accepted : Bool)

namespace Forwarder

section Steps

variable {Buf : Type} [PrefixBuffer Buf]

omit [PrefixBuffer Buf] in
def new (codec : ConnectIpDatagramCodec) : Forwarder Buf :=
  ⟨.top, codec, .new, .new, none, none, [], [], [], [], 0⟩

def exit (fw : Forwarder Buf) (failure : Option String) : Forwarder Buf :=
  { fw with point := .exited failure }

def assignIngress (slot : Option (List Buf)) (fw : Forwarder Buf) : Forwarder Buf :=
  { fw with
    pendingIngress := slot
    overwrites := fw.overwrites + if fw.pendingIngress.isSome then 1 else 0 }

def assignSend (slot : Option (SocketAddr × List Buf)) (fw : Forwarder Buf) : Forwarder Buf :=
  { fw with
    pendingSend := slot
    overwrites := fw.overwrites + if fw.pendingSend.isSome then 1 else 0 }

def offerIngress (batch : List Buf) (ingress : TrySend) (fw : Forwarder Buf) : Forwarder Buf :=
  match ingress with
  | .ok => { fw with placedIngress := fw.placedIngress ++ [batch] }.assignIngress none
  | .full => fw.assignIngress (some batch)
  | .closed => fw.exit none

def onUdpRecv (received : Option (Received Buf)) (ingress : TrySend)
    (fw : Forwarder Buf) : Forwarder Buf :=
  match received with
  | none => fw.exit none
  | some received =>
      let rxCounters := handleUdpRecv received.packets fw.rxCounters
      match received.polled with
      | .error failure => { fw with rxCounters }.exit (some failure.intoActorReason)
      | .ok _ =>
          match collectRouterIngress fw.codec received.datagrams rxCounters with
          | none => { fw with point := .panicked }
          | some (batch, rxCounters) =>
              if batch.isEmpty then { fw with rxCounters, point := .flushing }
              else
                { fw with
                  rxCounters, point := .flushing
                  collectedIngress := fw.collectedIngress ++ [batch] }.offerIngress batch ingress

def onIngressPermit (granted : Bool) (fw : Forwarder Buf) : Forwarder Buf :=
  if granted then
    match fw.pendingIngress with
    | none => { fw with point := .panicked }
    | some batch =>
        { fw with
          pendingIngress := none
          placedIngress := fw.placedIngress ++ [batch]
          point := .flushing }
  else fw.exit none

def onEgress (packets : Option (List (Buf × DgramSend))) (fw : Forwarder Buf) : Forwarder Buf :=
  match packets with
  | none => fw.exit none
  | some packets =>
      { fw with
        txCounters := handleRouterEgress fw.codec packets fw.txCounters
        point := .flushing }

def onSendPermit (granted : Bool) (fw : Forwarder Buf) : Forwarder Buf :=
  if granted then
    match fw.pendingSend with
    | none => { fw with point := .panicked }
    | some send =>
        { fw with pendingSend := none, placedSend := fw.placedSend ++ [send], point := .flushing }
  else fw.exit none

def select (ingressPending sendPending : Bool) (branch : Branch Buf) (fw : Forwarder Buf) :
    Option (Forwarder Buf) :=
  match branch with
  | .udpRecv received ingress =>
      if ingressPending then none else some (fw.onUdpRecv received ingress)
  | .ingressPermit granted => if ingressPending then some (fw.onIngressPermit granted) else none
  | .egress packets => some (fw.onEgress packets)
  | .stop => some (fw.exit none)
  | .sendPermit granted => if sendPending then some (fw.onSendPermit granted) else none
  | .timer | .keepalive | .ticker => some { fw with point := .flushing }

def endTurn (connClosed : Bool) (fw : Forwarder Buf) : Forwarder Buf :=
  if connClosed then fw.exit (some "QUIC connection closed") else { fw with point := .top }

def offerSend (batch : SocketAddr × List Buf) (send : TrySend) (connClosed : Bool)
    (fw : Forwarder Buf) : Forwarder Buf :=
  match send with
  | .ok => { fw with placedSend := fw.placedSend ++ [batch] }.endTurn connClosed
  | .full => (fw.assignSend (some batch)).endTurn connClosed
  | .closed => fw.exit (some H3Engine.txClosed)

def flush (outgoing : List (Buf × SocketAddr)) (send : TrySend) (connClosed : Bool)
    (fw : Forwarder Buf) : Forwarder Buf :=
  if fw.pendingSend.isNone then
    match collectUdpSend outgoing with
    | none => fw.endTurn connClosed
    | some batch =>
        { fw with collectedSend := fw.collectedSend ++ [batch] }.offerSend batch send connClosed
  else fw.endTurn connClosed

def cleanup (failure : Option String) (outgoing : List (Buf × SocketAddr)) (accepted : Bool)
    (fw : Forwarder Buf) : Forwarder Buf :=
  match collectUdpSend outgoing with
  | none => { fw with point := .finished failure }
  | some batch =>
      { fw with
        point := .finished failure
        collectedSend := fw.collectedSend ++ [batch]
        placedSend := if accepted then fw.placedSend ++ [batch] else fw.placedSend }

def step (input : ForwardInput Buf) (fw : Forwarder Buf) : Option (Forwarder Buf) :=
  match fw.point, input with
  | .top, .sample =>
      some { fw with point := .selecting fw.pendingIngress.isSome fw.pendingSend.isSome }
  | .selecting ingressPending sendPending, .branch branch =>
      fw.select ingressPending sendPending branch
  | .flushing, .flush outgoing send connClosed => some (fw.flush outgoing send connClosed)
  | .exited failure, .cleanup outgoing accepted => some (fw.cleanup failure outgoing accepted)
  | _, _ => none

end Steps

/-! ## Nothing is lost -/

variable {Buf : Type}

/-- What was collected is placed, in order, except for what a slot holds. -/
structure Balanced (fw : Forwarder Buf) : Prop where
  ingress : fw.collectedIngress = fw.placedIngress ++ fw.pendingIngress.toList
  send : fw.collectedSend = fw.placedSend ++ fw.pendingSend.toList

/-- No slot was assigned while it held a batch, and no empty batch was collected. -/
structure Tidy (fw : Forwarder Buf) : Prop where
  overwrites : fw.overwrites = 0
  nonempty : ∀ batch ∈ fw.collectedIngress, batch ≠ []

/-- The loop has come to a point with nothing lost, or has ended. -/
structure Arrives (point : Point) (fw : Forwarder Buf) : Prop where
  tidy : fw.Tidy
  balanced : (fw.point = point ∧ fw.Balanced) ∨ ∃ failure, fw.point = .exited failure

def Lossless (fw : Forwarder Buf) : Prop :=
  fw.Tidy ∧
    match fw.point with
    | .top | .flushing => fw.Balanced
    | .selecting ingressPending sendPending =>
        fw.Balanced ∧ ingressPending = fw.pendingIngress.isSome ∧
          sendPending = fw.pendingSend.isSome
    | .exited _ | .finished _ => True
    | .panicked => False

variable {fw next : Forwarder Buf}

theorem Arrives.exit (tidy : fw.Tidy) (point : Point) (failure : Option String) :
    (fw.exit failure).Arrives point :=
  ⟨⟨tidy.overwrites, tidy.nonempty⟩, .inr ⟨failure, rfl⟩⟩

theorem Arrives.lossless (arrives : fw.Arrives .top ∨ fw.Arrives .flushing) : fw.Lossless := by
  rcases arrives with ⟨tidy, ⟨point, balanced⟩ | ⟨failure, point⟩⟩ | ⟨tidy,
    ⟨point, balanced⟩ | ⟨failure, point⟩⟩
  all_goals
    unfold Lossless
    rw [point]
  · exact ⟨tidy, balanced⟩
  · exact ⟨tidy, trivial⟩
  · exact ⟨tidy, balanced⟩
  · exact ⟨tidy, trivial⟩

theorem arrives_offerIngress (tidy : fw.Tidy) (point : fw.point = .flushing)
    (free : fw.pendingIngress = none)
    (send : fw.collectedSend = fw.placedSend ++ fw.pendingSend.toList) {batch : List Buf}
    (ingress : fw.collectedIngress = fw.placedIngress ++ [batch]) (answer : TrySend) :
    (fw.offerIngress batch answer).Arrives .flushing := by
  have kept : fw.overwrites + (if fw.pendingIngress.isSome then 1 else 0) = 0 := by
    simp [free, tidy.overwrites]
  cases answer with
  | ok =>
    exact ⟨⟨kept, tidy.nonempty⟩,
      .inl ⟨point, by simpa [offerIngress, assignIngress] using ingress, send⟩⟩
  | full => exact ⟨⟨kept, tidy.nonempty⟩, .inl ⟨point, ingress, send⟩⟩
  | closed => exact .exit tidy _ _

theorem arrives_onIngressPermit (tidy : fw.Tidy) (balanced : fw.Balanced)
    (held : fw.pendingIngress.isSome = true) (granted : Bool) :
    (fw.onIngressPermit granted).Arrives .flushing := by
  obtain ⟨batch, pending⟩ := Option.isSome_iff_exists.mp held
  unfold onIngressPermit
  cases granted with
  | false => exact .exit tidy _ _
  | true =>
    simp only [pending, if_true]
    refine ⟨⟨tidy.overwrites, tidy.nonempty⟩, .inl ⟨rfl, ?_, balanced.send⟩⟩
    simpa [pending] using balanced.ingress

theorem arrives_onSendPermit (tidy : fw.Tidy) (balanced : fw.Balanced)
    (held : fw.pendingSend.isSome = true) (granted : Bool) :
    (fw.onSendPermit granted).Arrives .flushing := by
  obtain ⟨send, pending⟩ := Option.isSome_iff_exists.mp held
  unfold onSendPermit
  cases granted with
  | false => exact .exit tidy _ _
  | true =>
    simp only [pending, if_true]
    refine ⟨⟨tidy.overwrites, tidy.nonempty⟩, .inl ⟨rfl, balanced.ingress, ?_⟩⟩
    simpa [pending] using balanced.send

theorem arrives_endTurn (tidy : fw.Tidy) (balanced : fw.Balanced) (connClosed : Bool) :
    (fw.endTurn connClosed).Arrives .top := by
  unfold endTurn
  split
  · exact .exit tidy _ _
  · exact ⟨⟨tidy.overwrites, tidy.nonempty⟩, .inl ⟨rfl, balanced.ingress, balanced.send⟩⟩

theorem arrives_offerSend (tidy : fw.Tidy) (free : fw.pendingSend = none)
    (ingress : fw.collectedIngress = fw.placedIngress ++ fw.pendingIngress.toList)
    {batch : SocketAddr × List Buf} (send : fw.collectedSend = fw.placedSend ++ [batch])
    (answer : TrySend) (connClosed : Bool) :
    (fw.offerSend batch answer connClosed).Arrives .top := by
  cases answer with
  | ok =>
    apply arrives_endTurn
    · exact ⟨tidy.overwrites, tidy.nonempty⟩
    · exact ⟨ingress, by simp [send, free]⟩
  | full =>
    apply arrives_endTurn
    · exact ⟨by simp [assignSend, free, tidy.overwrites], tidy.nonempty⟩
    · exact ⟨ingress, send⟩
  | closed => exact .exit tidy _ _

theorem arrives_flush (tidy : fw.Tidy) (balanced : fw.Balanced)
    (outgoing : List (Buf × SocketAddr)) (answer : TrySend) (connClosed : Bool) :
    (fw.flush outgoing answer connClosed).Arrives .top := by
  unfold flush
  split
  next free =>
    rw [Option.isNone_iff_eq_none] at free
    have placed := balanced.send
    rw [free, Option.toList_none, List.append_nil] at placed
    split
    next => exact arrives_endTurn tidy balanced connClosed
    next batch _ =>
      apply arrives_offerSend
      · exact ⟨tidy.overwrites, tidy.nonempty⟩
      · exact free
      · exact balanced.ingress
      · rw [placed]
  next => exact arrives_endTurn tidy balanced connClosed

variable [PrefixBuffer Buf]

theorem stripAll_total (codec : ConnectIpDatagramCodec) (datagrams : List Buf) (counters : Stats) :
    ∃ result, stripAll codec datagrams counters = some result := by
  induction datagrams generalizing counters with
  | nil => exact ⟨_, rfl⟩
  | cons buf rest ih =>
    obtain ⟨accepted, stripped, answer⟩ := codec.strip_total buf
    unfold stripAll
    cases accepted with
    | false =>
      simp only [answer]
      exact ih _
    | true =>
      obtain ⟨result, collected⟩ := ih counters
      simp only [answer, collected, Option.map_some]
      exact ⟨_, rfl⟩

theorem arrives_onUdpRecv (tidy : fw.Tidy) (balanced : fw.Balanced)
    (free : fw.pendingIngress = none) (received : Option (Received Buf)) (ingress : TrySend) :
    (fw.onUdpRecv received ingress).Arrives .flushing := by
  unfold onUdpRecv
  cases received with
  | none => exact .exit tidy _ _
  | some received =>
    simp only
    split
    next =>
      apply Arrives.exit
      exact ⟨tidy.overwrites, tidy.nonempty⟩
    next =>
      obtain ⟨result, stripped⟩ := stripAll_total fw.codec received.datagrams
        (handleUdpRecv received.packets fw.rxCounters)
      simp only [collectRouterIngress, stripped, Option.map_some]
      split
      next => exact ⟨⟨tidy.overwrites, tidy.nonempty⟩, .inl ⟨rfl, balanced.ingress, balanced.send⟩⟩
      next some =>
        have placed := balanced.ingress
        rw [free, Option.toList_none, List.append_nil] at placed
        apply arrives_offerIngress
        · refine ⟨tidy.overwrites, fun batch member => ?_⟩
          rcases List.mem_append.mp member with member | member
          · exact tidy.nonempty batch member
          · rw [List.mem_singleton.mp member]
            simpa using some
        · rfl
        · exact free
        · exact balanced.send
        · rw [placed]

/-- The guards are the slots, since nothing changes them while the branches are awaited. -/
theorem arrives_select (tidy : fw.Tidy) (balanced : fw.Balanced) {branch : Branch Buf}
    (taken : fw.select fw.pendingIngress.isSome fw.pendingSend.isSome branch = some next) :
    next.Arrives .flushing := by
  cases branch with
  | udpRecv received ingress =>
    obtain ⟨free, same⟩ := Option.ite_none_left_eq_some.mp taken
    cases same
    exact arrives_onUdpRecv tidy balanced (by simpa using free) received ingress
  | ingressPermit granted =>
    obtain ⟨held, same⟩ := Option.ite_none_right_eq_some.mp taken
    cases same
    exact arrives_onIngressPermit tidy balanced held granted
  | egress packets =>
    cases taken
    cases packets with
    | none => exact .exit tidy _ _
    | some packets =>
      exact ⟨⟨tidy.overwrites, tidy.nonempty⟩, .inl ⟨rfl, balanced.ingress, balanced.send⟩⟩
  | stop =>
    cases taken
    exact .exit tidy _ _
  | sendPermit granted =>
    obtain ⟨held, same⟩ := Option.ite_none_right_eq_some.mp taken
    cases same
    exact arrives_onSendPermit tidy balanced held granted
  | timer | keepalive | ticker =>
    cases taken
    exact ⟨⟨tidy.overwrites, tidy.nonempty⟩, .inl ⟨rfl, balanced.ingress, balanced.send⟩⟩

theorem Lossless.step (lossless : fw.Lossless) {input : ForwardInput Buf}
    (taken : fw.step input = some next) : next.Lossless := by
  obtain ⟨tidy, state⟩ := lossless
  unfold Forwarder.step at taken
  split at taken
  next point =>
    rw [point] at state
    cases taken
    exact ⟨⟨tidy.overwrites, tidy.nonempty⟩, ⟨state.ingress, state.send⟩, rfl, rfl⟩
  next ingressPending sendPending branch point =>
    rw [point] at state
    obtain ⟨balanced, rfl, rfl⟩ := state
    exact Arrives.lossless (.inr (arrives_select tidy balanced taken))
  next outgoing send connClosed point =>
    rw [point] at state
    cases taken
    exact Arrives.lossless (.inl (arrives_flush tidy state outgoing send connClosed))
  next failure outgoing accepted point =>
    cases taken
    unfold cleanup
    split
    · exact ⟨⟨tidy.overwrites, tidy.nonempty⟩, trivial⟩
    · exact ⟨⟨tidy.overwrites, tidy.nonempty⟩, trivial⟩
  next => cases taken

def InLoop (fw : Forwarder Buf) : Prop :=
  match fw.point with
  | .top | .selecting .. | .flushing => True
  | .exited _ | .finished _ | .panicked => False

omit [PrefixBuffer Buf] in
theorem Lossless.balanced (lossless : fw.Lossless) (running : fw.InLoop) : fw.Balanced := by
  obtain ⟨_, state⟩ := lossless
  unfold InLoop at running
  cases point : fw.point with
  | top | flushing => simpa only [point] using state
  | selecting ingressPending sendPending =>
    rw [point] at state
    exact state.1
  | exited | finished | panicked => simp only [point] at running

/-- Packets are received only at a sample that found the slot free. -/
theorem Lossless.free_of_udpRecv (lossless : fw.Lossless) {received : Option (Received Buf)}
    {ingress : TrySend} (taken : fw.step (.branch (.udpRecv received ingress)) = some next) :
    fw.pendingIngress = none := by
  have state := lossless.2
  unfold Forwarder.step at taken
  split at taken
  next input => cases input
  next ingressPending sendPending branch point input =>
    cases input
    rw [point] at state
    obtain ⟨free, _⟩ := Option.ite_none_left_eq_some.mp taken
    rw [state.2.1] at free
    simpa using free
  next input => cases input
  next input => cases input
  next => cases taken

omit [PrefixBuffer Buf] in
theorem collectedSend_endTurn (connClosed : Bool) :
    (fw.endTurn connClosed).collectedSend = fw.collectedSend := by
  unfold endTurn
  split <;> rfl

theorem collectedSend_of_held (held : fw.pendingSend ≠ none) {outgoing : List (Buf × SocketAddr)}
    {send : TrySend} {connClosed : Bool}
    (taken : fw.step (.flush outgoing send connClosed) = some next) :
    next.collectedSend = fw.collectedSend := by
  unfold Forwarder.step at taken
  split at taken
  next input => cases input
  next input => cases input
  next input =>
    cases taken
    have occupied : ¬ fw.pendingSend.isNone = true := by simpa using held
    rw [flush, if_neg occupied, collectedSend_endTurn]
  next input => cases input
  next => cases taken

/-- While the loop runs, the batches in the channels are, in order, those that were collected,
except for the newest ones in the slots. No slot is overwritten, no packets are received while
a batch for the router waits, and a slot that is emptied holds a batch. -/
theorem backpressure_lossless (codec : ConnectIpDatagramCodec) {fw : Forwarder Buf}
    (reached : Reaches step (fun _ _ => True) (new codec) fw) :
    (fw.InLoop →
      fw.collectedIngress = fw.placedIngress ++ fw.pendingIngress.toList ∧
      fw.collectedSend = fw.placedSend ++ fw.pendingSend.toList) ∧
    (∀ batch ∈ fw.collectedIngress, batch ≠ []) ∧ fw.overwrites = 0 ∧ fw.point ≠ .panicked ∧
    (∀ received ingress next, fw.step (.branch (.udpRecv received ingress)) = some next →
      fw.pendingIngress = none) ∧
    ∀ outgoing send connClosed next, fw.step (.flush outgoing send connClosed) = some next →
      next.collectedSend ≠ fw.collectedSend → fw.pendingSend = none := by
  have initial : (new codec : Forwarder Buf).Lossless := ⟨⟨rfl, by simp [new]⟩, rfl, rfl⟩
  have lossless : fw.Lossless := reached.invariant initial fun _ _ _ lossless _ taken =>
    lossless.step taken
  have tidy := lossless.1
  refine ⟨fun running => ?_, tidy.nonempty, tidy.overwrites, fun panicked => ?_, ?_, ?_⟩
  · have balanced := lossless.balanced running
    exact ⟨balanced.ingress, balanced.send⟩
  · have state := lossless.2
    rw [panicked] at state
    exact state
  · intro received ingress next taken
    exact lossless.free_of_udpRecv taken
  · intro outgoing send connClosed next taken collected
    by_contra held
    exact collected (collectedSend_of_held held taken)

def fullChannels : List (ForwardInput VecBuffer) :=
  let datagram : VecBuffer := ⟨[0, 0, 0x45], 0, by decide⟩
  [.sample, .branch (.udpRecv (some ⟨[], .ok .ready, [datagram]⟩) .full), .flush [] .ok false,
    .sample, .branch (.ingressPermit true),
      .flush [(datagram, ⟨.v4 0xc0000201#32, 4433⟩)] .full false,
    .sample, .branch .timer, .flush [(datagram, ⟨.v4 0xc0000202#32, 4433⟩)] .ok false, .sample]

theorem backpressure_lossless_full : ∃ fw : Forwarder VecBuffer,
    Reaches step (fun _ _ => True) (new ⟨0, [0]⟩) fw ∧ fw.placedIngress.length = 1 ∧
    fw.placedSend = [] ∧
      fw.collectedIngress = fw.placedIngress ++ fw.pendingIngress.toList ∧
      fw.collectedSend = fw.placedSend ++ fw.pendingSend.toList ∧ fw.collectedSend.length = 1 := by
  have executes : ((run step fullChannels (new ⟨0, [0]⟩)).any fun fw =>
      decide (fw.point = .selecting false true ∧ fw.placedIngress.length = 1 ∧
        fw.placedSend.length = 0 ∧
        fw.collectedSend.length = 1)) = true := by
    decide +kernel
  obtain ⟨fw, executed, facts⟩ := (Option.any_eq_true ..).mp executes
  obtain ⟨point, ingress, send, collected⟩ := of_decide_eq_true facts
  have reached : Reaches step (fun _ _ => True) (new ⟨0, [0]⟩) fw :=
    reaches_of_run (fun _ _ _ => trivial) executed
  have running : fw.InLoop := by
    unfold InLoop
    rw [point]
    trivial
  obtain ⟨placed, sent⟩ := (backpressure_lossless ⟨0, [0]⟩ reached).1 running
  exact ⟨fw, reached, ingress, List.length_eq_zero_iff.mp send, placed, sent, collected⟩

end Forwarder
end H3llo.H3
