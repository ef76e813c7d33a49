import H3llo.H3.Codec
import H3llo.H3.Request

/-! The session of one CONNECT-IP request.

A session polls the events of its HTTP/3 connection until there are none left. Header
blocks go to a handler, which differs between the roles and the phases of a connection;
the handler decides whether the session is accepted.
-/

set_option autoImplicit false

namespace H3llo.H3
open H3llo.Net.Utf8

inductive HeaderAction where
  | accept (streamId : UInt64) (peerId : Option String)
  | ignore
  deriving DecidableEq, Repr

inductive ConnectProgress where
  | pending | ready
  deriving DecidableEq, Repr

inductive ConnectFailure where
  | rejected (status : String)
  | closed (reason : String)
  | poll (reason : String)
  deriving DecidableEq, Repr

def ConnectFailure.intoActorReason : ConnectFailure → String
  | .rejected status => "CONNECT-IP rejected after establish: " ++ status
  | .closed reason | .poll reason => reason

inductive H3Event where
  | headers (list : List Header)
  | data
  | finished
  | reset (code : UInt64)
  | priorityUpdate
  | goAway
  deriving DecidableEq, Repr

/-- What is asked of the HTTP/3 library. -/
inductive Output where
  | request (headers : List Header)
  | response (streamId : UInt64) (headers : List Header) (fin : Bool)
  | stopReading (streamId : UInt64)
  deriving DecidableEq, Repr

structure H3Session where
  connectStreamId : Option UInt64
  datagramCodec : ConnectIpDatagramCodec
  connectAccepted : Bool
  acceptedPeerId : Option String
  deriving DecidableEq, Repr

/-- What a handler has sent, and its decision. -/
abbrev Handled := List Output × Except ConnectFailure HeaderAction

/-! ## Handlers -/

section Server

variable [Hmac]

/-- `sendError` is the library's error on sending the acceptance. -/
def serverHandler (peerTokens : List (String × String)) (key : HmacKey) (sendError : Option String)
    (streamId : UInt64) (headers : List Header) : Handled :=
  match validateServerConnectHeaders headers with
  | .error _ => ([.response streamId [⟨asBytes ":status", asBytes "400"⟩] true], .ok .ignore)
  | .ok () =>
      match validateServerAuth key headers peerTokens with
      | .error _ => ([.response streamId [⟨asBytes ":status", asBytes "401"⟩] true], .ok .ignore)
      | .ok peerId =>
          let response := [⟨asBytes ":status", asBytes "200"⟩,
            ⟨asBytes "capsule-protocol", asBytes "?1"⟩]
          ([.response streamId response false],
            match sendError with
            | some error => .error (.closed ("send 200: " ++ error))
            | none => .ok (.accept streamId (some peerId)))

theorem serverHandler_accept {peerTokens : List (String × String)} {key : HmacKey}
    {sendError : Option String} {streamId bound : UInt64} {headers : List Header}
    {peerId : Option String}
    (accepted : (serverHandler peerTokens key sendError streamId headers).2 =
      .ok (.accept bound peerId)) :
    bound = streamId ∧ validateServerConnectHeaders headers = .ok () ∧
      ∃ id, peerId = some id ∧ validateServerAuth key headers peerTokens = .ok id := by
  unfold serverHandler at accepted
  cases valid : validateServerConnectHeaders headers with
  | error reason => simp [valid] at accepted
  | ok checked =>
    cases auth : validateServerAuth key headers peerTokens with
    | error reason => simp [valid, auth] at accepted
    | ok id =>
      cases sendError with
      | some error => simp [valid, auth] at accepted
      | none =>
        simp only [valid, auth, Except.ok.injEq, HeaderAction.accept.injEq] at accepted
        exact ⟨accepted.1.symm, rfl, id, accepted.2.symm, rfl⟩

end Server

def responseStatus (headers : List Header) : Option String :=
  (headers.find? fun header => header.name == asBytes ":status").map fun header =>
    fromUtf8Lossy header.value

def clientHandler (connectSid : Option UInt64) (streamId : UInt64)
    (headers : List Header) : Handled :=
  if connectSid ≠ some streamId then ([], .ok .ignore)
  else
    match responseStatus headers with
    | some code =>
        if code = "200" then ([], .ok (.accept streamId none))
        else ([], .error (.rejected code))
    | none => ([], .error (.closed "missing :status on CONNECT-IP response"))

theorem clientHandler_accept {connectSid : Option UInt64} {streamId bound : UInt64}
    {headers : List Header} {peerId : Option String}
    (accepted : (clientHandler connectSid streamId headers).2 = .ok (.accept bound peerId)) :
    bound = streamId ∧ connectSid = some streamId ∧ responseStatus headers = some "200" ∧
    peerId = none := by
  unfold clientHandler at accepted
  by_cases own : connectSid = some streamId
  · cases status : responseStatus headers with
    | none => simp [own, status] at accepted
    | some code =>
      by_cases ok : code = "200"
      · simp only [own, status, ok, ne_eq, not_true_eq_false, if_false, if_true, Except.ok.injEq,
          HeaderAction.accept.injEq] at accepted
        exact ⟨accepted.1.symm, own, by rw [ok], accepted.2.symm⟩
      · simp [own, status, ok] at accepted
  · simp [own] at accepted

def ignoreHandler (_streamId : UInt64) (_headers : List Header) : Handled := ([], .ok .ignore)

/-! ## Sessions -/

namespace H3Session

/-- A session before the stream is known; `none` where its codec panics. -/
def withTransport : Option H3Session :=
  (ConnectIpDatagramCodec.new 0).map fun datagramCodec =>
    { connectStreamId := none, datagramCodec, connectAccepted := false, acceptedPeerId := none }

def bindConnectStream (session : H3Session) (streamId : UInt64) : Option H3Session :=
  (ConnectIpDatagramCodec.new streamId).map fun datagramCodec =>
    { session with connectStreamId := some streamId, datagramCodec }

def connectReady (session : H3Session) (dgramEnabledByPeer : Bool) : Bool :=
  session.connectAccepted && dgramEnabledByPeer

def progress (session : H3Session) (dgramEnabledByPeer : Bool) : ConnectProgress :=
  if session.connectReady dgramEnabledByPeer then .ready else .pending

theorem accepted_of_ready {session : H3Session} {dgramEnabledByPeer : Bool}
    (isReady : session.progress dgramEnabledByPeer = .ready) : session.connectAccepted = true := by
  unfold progress connectReady at isReady
  split at isReady
  next ready => exact (Bool.and_eq_true_iff.mp ready).1
  next => cases isReady

/-- One turn of the polling loop that gets an event; `none` where it panics. -/
def pollH3Event (onHeaders : UInt64 → List Header → Handled) (session : H3Session)
    (streamId : UInt64) :
    H3Event → List Output × Option (Except ConnectFailure H3Session)
  | .headers list =>
      if session.connectAccepted then ([.stopReading streamId], some (.ok session))
      else
        match onHeaders streamId list with
        | (outputs, .error failure) => (outputs, some (.error failure))
        | (outputs, .ok .ignore) => (outputs, some (.ok session))
        | (outputs, .ok (.accept sid peerId)) =>
            (outputs, (session.bindConnectStream sid).map fun bound =>
              .ok { bound with connectAccepted := true, acceptedPeerId := peerId })
  | .finished =>
      ([], some (if session.connectStreamId = some streamId then
        .error (.closed "CONNECT-IP stream finished")
        else .ok session))
  | .reset code =>
      ([], some (if session.connectStreamId = some streamId then
          .error (.closed ("CONNECT-IP stream reset: " ++ toString code.toNat))
        else .ok session))
  | .goAway => ([], some (.error (.closed "received GOAWAY")))
  | .priorityUpdate | .data => ([], some (.ok session))

/-- Events that end a session, whatever the handler. -/
def Fatal (session : H3Session) (streamId : UInt64) : H3Event → Prop
  | .goAway => True
  | .finished | .reset _ => session.connectStreamId = some streamId
  | .headers _ | .data | .priorityUpdate => False

theorem withTransport_isSome : ∃ codec, ConnectIpDatagramCodec.new 0 = some codec ∧
    withTransport = some ⟨none, codec, false, none⟩ := by
  obtain ⟨codec, made, _⟩ := ConnectIpDatagramCodec.new_total 0
  exact ⟨codec, made, by simp [withTransport, made]⟩

theorem bindConnectStream_isSome (session : H3Session) (streamId : UInt64) :
    ∃ codec, ConnectIpDatagramCodec.new streamId = some codec ∧
      session.bindConnectStream streamId =
        some { session with connectStreamId := some streamId, datagramCodec := codec } := by
  obtain ⟨codec, made, _⟩ := ConnectIpDatagramCodec.new_total streamId
  exact ⟨codec, made, by simp [bindConnectStream, made]⟩

section Polling

variable {onHeaders : UInt64 → List Header → Handled} {session : H3Session} {streamId : UInt64}
  {event : H3Event}

theorem pollH3Event_fatal (fatal : Fatal session streamId event) :
    ∃ reason, pollH3Event onHeaders session streamId event =
      ([], some (.error (.closed reason))) := by
  cases event with
  | goAway => exact ⟨_, rfl⟩
  | finished =>
    have bound : session.connectStreamId = some streamId := fatal
    exact ⟨_, by rw [pollH3Event, if_pos bound]⟩
  | reset code =>
    have bound : session.connectStreamId = some streamId := fatal
    exact ⟨_, by rw [pollH3Event, if_pos bound]⟩
  | headers list => cases fatal
  | data => cases fatal
  | priorityUpdate => cases fatal

/-- Everything that an event can do to a session. -/
inductive Polled (onHeaders : UInt64 → List Header → Handled) (session : H3Session)
    (streamId : UInt64) : H3Event → Option (Except ConnectFailure H3Session) → Prop where
  | kept {event : H3Event} (harmless : ¬ Fatal session streamId event) :
      Polled onHeaders session streamId event (some (.ok session))
  | failed {event : H3Event} {failure : ConnectFailure}
      (caused : Fatal session streamId event ∨ ∃ list, event = .headers list) :
      Polled onHeaders session streamId event (some (.error failure))
  | accepted {list : List Header} {sid : UInt64} {peerId : Option String}
      {codec : ConnectIpDatagramCodec} (first : session.connectAccepted = false)
      (decided : (onHeaders streamId list).2 = .ok (.accept sid peerId))
      (coded : ConnectIpDatagramCodec.new sid = some codec) :
      Polled onHeaders session streamId (.headers list) (some (.ok ⟨some sid, codec, true, peerId⟩))

theorem polled_of_pollH3Event :
    Polled onHeaders session streamId event (pollH3Event onHeaders session streamId event).2 := by
  cases event with
  | headers list =>
    by_cases already : session.connectAccepted
    · simp only [pollH3Event, if_pos already]
      exact .kept id
    · simp only [pollH3Event, if_neg already]
      split
      next outputs failure decided => exact .failed (.inr ⟨list, rfl⟩)
      next outputs decided => exact .kept id
      next outputs sid peerId decided =>
        obtain ⟨codec, coded, bound⟩ := session.bindConnectStream_isSome sid
        rw [bound]
        exact .accepted (by simpa using already) (by rw [decided]) coded
  | finished =>
    by_cases bound : session.connectStreamId = some streamId
    · simp only [pollH3Event, if_pos bound]
      exact .failed (.inl bound)
    · simp only [pollH3Event, if_neg bound]
      exact .kept bound
  | reset code =>
    by_cases bound : session.connectStreamId = some streamId
    · simp only [pollH3Event, if_pos bound]
      exact .failed (.inl bound)
    · simp only [pollH3Event, if_neg bound]
      exact .kept bound
  | goAway => exact .failed (.inl trivial)
  | data => exact .kept id
  | priorityUpdate => exact .kept id

end Polling

end H3Session
end H3llo.H3
