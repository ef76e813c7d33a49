import H3llo.H3.Engine

/-! The two ends of a tunnel.

A dialer and a listener run their engines against each other. The transport between them
gives each end only header blocks that the other end has sent, on the stream they were sent
on. It may lose and delay them, and all other events are arbitrary.
-/

set_option autoImplicit false

namespace H3llo.H3
open H3llo.Runs H3llo.Net.Utf8

/-- `requests` and `responses` are the header blocks that were sent, each with its stream. -/
structure Tunnel where
  client : H3Engine
  server : H3Engine
  requests : List (UInt64 × List Header)
  responses : List (UInt64 × List Header)

inductive TunnelAction where
  | client (input : Input)
  | server (input : Input)

namespace H3Engine

def added (before after : H3Engine) : List Output := after.outputs.drop before.outputs.length

def requestHeaders : Output → Option (List Header)
  | .request headers => some headers
  | .response _ _ _ | .stopReading _ => none

def responseHeaders : Output → Option (UInt64 × List Header)
  | .response streamId headers _ => some (streamId, headers)
  | .request _ | .stopReading _ => none

def issued (before after : H3Engine) : Input → List (UInt64 × List Header)
  | .receive arrival =>
      match arrival.request with
      | .ok streamId =>
          ((before.added after).filterMap requestHeaders).map fun headers => (streamId, headers)
      | .error _ => []
  | .event _ _ _ _ _ | .done _ _ _ | .pollError _ _ | .timer _ _ | .deadline _ | .rxClosed
  | .stop => []

def answered (before after : H3Engine) : List (UInt64 × List Header) :=
  if after.phase = before.phase then (before.added after).filterMap responseHeaders else []

end H3Engine

namespace Tunnel

def new (peerId placeholder : String) : Tunnel := ⟨.new peerId, .new placeholder, [], []⟩

section Step

variable [Hmac] (request : ConnectRequest) (tokens : List (String × String))

def step : TunnelAction → Tunnel → Option Tunnel
  | .client input, tunnel =>
      (tunnel.client.step (.client request) input).map fun client =>
        { tunnel with client, requests := tunnel.requests ++ tunnel.client.issued client input }
  | .server input, tunnel =>
      (tunnel.server.step (.server tokens) input).map fun server =>
        { tunnel with server, responses := tunnel.responses ++ tunnel.server.answered server }

end Step

def Delivered (tunnel : Tunnel) : TunnelAction → Prop
  | .client (.event streamId (.headers list) _ _ _) => (streamId, list) ∈ tunnel.responses
  | .server (.event streamId (.headers list) _ _ _) => (streamId, list) ∈ tunnel.requests
  | _ => True

end Tunnel

/-! ## What each end sends -/

namespace H3Engine

theorem added_of_outputs {before after : H3Engine} {more : List Output}
    (outputs : after.outputs = before.outputs ++ more) : before.added after = more := by
  rw [added, outputs, List.drop_left]

theorem outputs_endTurn (role : Role) (engine : H3Engine) (flushed closed : Bool) :
    (engine.endTurn role flushed closed).outputs = engine.outputs := by
  unfold endTurn
  split_ifs <;> rfl

theorem openSession_client (request : ConnectRequest) (engine : H3Engine) (arrival : Arrival) :
    (engine.openSession (.client request) arrival).outputs = engine.outputs ∨
      engine.session = none ∧
        (engine.openSession (.client request) arrival).outputs =
          engine.outputs ++
            [.request (connectHeaders request.authority request.connectPath request.authHeader)] ∧
        ∀ streamId, arrival.request = .ok streamId →
          (engine.openSession (.client request) arrival).bound = some streamId := by
  unfold openSession
  by_cases create : engine.session.isNone ∧ arrival.established
  · obtain ⟨codec, _, made⟩ := H3Session.withTransport_isSome
    rw [if_pos create, made]
    cases arrival.openError with
    | some error => exact .inl rfl
    | none =>
      cases arrival.settingsFlushed with
      | false => exact .inl rfl
      | true =>
        refine .inr ⟨Option.isNone_iff_eq_none.mp create.1, ?_⟩
        simp only [if_true, sendConnectRequest]
        cases arrival.request with
        | error error => exact ⟨rfl, nofun⟩
        | ok streamId =>
          obtain ⟨bound, _, isBound⟩ := H3Session.bindConnectStream_isSome
            ⟨none, codec, false, none⟩ streamId
          simp only [isBound]
          refine ⟨trivial, fun other same => ?_⟩
          cases same
          rfl
  · rw [if_neg create]
    exact .inl rfl

/-- Receiving changes the session and the outputs only by opening a session. -/
theorem receive_opened (role : Role) (engine : H3Engine) (arrival : Arrival) :
    ((engine.receive role arrival).session = engine.session ∧
      (engine.receive role arrival).outputs = engine.outputs) ∨
      (engine.receive role arrival).session = (engine.openSession role arrival).session ∧
        (engine.receive role arrival).outputs = (engine.openSession role arrival).outputs := by
  unfold receive
  split
  next =>
    right
    simp only
    split_ifs
    · exact ⟨rfl, rfl⟩
    · exact ⟨rfl, rfl⟩
    · exact ⟨(keeps_endTurn role _ _ _).session, outputs_endTurn role _ _ _⟩
  next => exact .inl ⟨rfl, rfl⟩

theorem openSession_server (tokens : List (String × String)) (engine : H3Engine)
    (arrival : Arrival) :
    (engine.openSession (.server tokens) arrival).outputs = engine.outputs := by
  unfold openSession
  by_cases create : engine.session.isNone ∧ arrival.established
  · obtain ⟨codec, _, made⟩ := H3Session.withTransport_isSome
    rw [if_pos create, made]
    cases arrival.openError <;> rfl
  · rw [if_neg create]

section Steps

variable [Hmac] {engine next : H3Engine}

theorem receive_of_step {role : Role} {arrival : Arrival}
    (taken : step role (.receive arrival) engine = some next) :
    next = engine.receive role arrival := by
  unfold step at taken
  cases isPolling : engine.polling with
  | true => simp [isPolling] at taken
  | false =>
    simp only [isPolling] at taken
    split at taken <;> cases taken
    rfl

theorem issued_of_step {request : ConnectRequest} {input : Input}
    (taken : step (.client request) input engine = some next) {item : UInt64 × List Header}
    (member : item ∈ engine.issued next input) :
    engine.session = none ∧ next.bound = some item.1 ∧
      item.2 = connectHeaders request.authority request.connectPath request.authHeader := by
  cases input with
  | receive arrival =>
    have received := receive_of_step taken
    simp only [issued] at member
    cases chosen : arrival.request with
    | error error => simp [chosen] at member
    | ok streamId =>
      simp only [chosen] at member
      have silent (same : next.outputs = engine.outputs) : False := by
        have none : engine.added next = [] := added_of_outputs (by rw [same, List.append_nil])
        simp [none] at member
      rcases receive_opened (.client request) engine arrival with ⟨_, same⟩ | ⟨session, outputs⟩
      · exact (silent (received ▸ same)).elim
      · rcases openSession_client request engine arrival with same | ⟨absent, sent, bound⟩
        · exact (silent (by rw [received, outputs, same])).elim
        · have one : engine.added next = _ := added_of_outputs (by rw [received, outputs, sent])
          simp only [one, requestHeaders, List.filterMap_cons, List.filterMap_nil, List.map_cons,
            List.map_nil, List.mem_singleton] at member
          rw [member]
          refine ⟨absent, ?_, rfl⟩
          rw [received, H3Engine.bound, session]
          exact bound streamId chosen
  | _ => cases member

omit [Hmac] in
theorem outputs_onDone (role : Role) (engine : H3Engine) (session : H3Session)
    (dgramEnabledByPeer flushed closed : Bool) :
    (engine.onDone role session dgramEnabledByPeer flushed closed).outputs = engine.outputs := by
  unfold onDone
  split
  next =>
    split
    next => exact outputs_endTurn role engine flushed closed
    next =>
      cases role with
      | client request => rfl
      | server tokens =>
        cases session.acceptedPeerId with
        | none => rfl
        | some peerId =>
          simp only
          split_ifs <;> rfl
  next => rfl

theorem outputs_of_step {role : Role} {input : Input} (taken : step role input engine = some next) :
    next.outputs = engine.outputs ∨ (∃ arrival, input = .receive arrival) ∨
      ∃ streamId event key sendError flushed,
      input = .event streamId event key sendError flushed := by
  unfold step at taken
  split at taken
  next => cases taken
  next =>
    split at taken
    next streamId event key sendError flushed _ _ _ =>
      exact .inr (.inr ⟨streamId, event, key, sendError, flushed, rfl⟩)
    next dgramEnabledByPeer flushed closed session _ _ =>
      cases taken
      exact .inl (outputs_onDone role engine session dgramEnabledByPeer flushed closed)
    next error flushed _ _ _ =>
      cases taken
      obtain ⟨result, exits, _⟩ := failTurn_exits role engine (.poll ("H3 poll: " ++ error)) flushed
      rw [exits]
      exact .inl rfl
    next arrival _ => exact .inr (.inl ⟨arrival, rfl⟩)
    next flushed closed _ =>
      split at taken <;> cases taken
      · exact .inl (outputs_endTurn role engine flushed closed)
      · exact .inl rfl
    next flushed _ =>
      split at taken <;> cases taken
      left
      unfold onDeadline
      split_ifs
      · rfl
      · cases role <;> rfl
    next =>
      cases taken
      left
      unfold onRxClosed
      split <;> rfl
    next =>
      split at taken <;> cases taken
      exact .inl rfl
    next => cases taken

/-- What a server answers to a header block. -/
inductive Answers (tokens : List (String × String)) (list : List Header) (key : HmacKey)
    (next : H3Engine) : UInt64 × List Header → Prop where
  | malformed {item : UInt64 × List Header} (status : responseStatus item.2 = some "400")
      (invalid : validateServerConnectHeaders list ≠ .ok ()) : Answers tokens list key next item
  | refused {item : UInt64 × List Header} {reason : String}
      (status : responseStatus item.2 = some "401")
      (unauthorized : validateServerAuth key list tokens = .error reason) :
        Answers tokens list key next item
  | admitted {item : UInt64 × List Header} (status : responseStatus item.2 = some "200")
      (accepted : next.accepted = true) (bound : next.bound = some item.1) :
        Answers tokens list key next item

theorem outputs_onEvent (role : Role) (engine : H3Engine) (session : H3Session)
    (streamId : UInt64) (event : H3Event) (key : HmacKey) (sendError : Option String)
    (flushed : Bool) :
    (engine.onEvent role session streamId event key sendError flushed).outputs =
      engine.outputs ++
        (session.pollH3Event (handler role engine.phase session key sendError) streamId
        event).1 := by
  unfold onEvent
  generalize session.pollH3Event (handler role engine.phase session key sendError) streamId event =
    polled
  obtain ⟨outputs, result⟩ := polled
  cases result with
  | none => rfl
  | some result =>
    cases result with
    | ok session => rfl
    | error failure =>
      obtain ⟨result, exits, _⟩ :=
        failTurn_exits role { engine with outputs := engine.outputs ++ outputs } failure flushed
      simp only [exits]
      rfl

theorem answers_handshake {tokens : List (String × String)} {session : H3Session}
    {streamId : UInt64} {list : List Header} {key : HmacKey} {sendError : Option String}
    {flushed : Bool} {item : UInt64 × List Header} (isHandshake : engine.phase = .handshake)
    (waiting : session.connectAccepted = false)
    (going : (engine.onEvent (.server tokens) session streamId
      (.headers list) key sendError flushed).phase = .handshake)
    (member : item ∈ (serverHandler tokens key sendError streamId list).1.filterMap
      responseHeaders) :
    item.1 = streamId ∧
      Answers tokens list key (engine.onEvent (.server tokens) session streamId
        (.headers list) key sendError flushed) item := by
  have handles : handler (.server tokens) engine.phase session key sendError =
      serverHandler tokens key sendError := by
    rw [isHandshake]
    rfl
  unfold serverHandler at member
  cases valid : validateServerConnectHeaders list with
  | error reason =>
    simp only [valid, List.filterMap_cons, List.filterMap_nil, responseHeaders, List.mem_singleton]
      at member
    rw [member]
    exact ⟨rfl, .malformed rfl (by rw [valid]; nofun)⟩
  | ok checked =>
    cases auth : validateServerAuth key list tokens with
    | error reason =>
      simp only [valid, auth, List.filterMap_cons, List.filterMap_nil, responseHeaders,
        List.mem_singleton] at member
      rw [member]
      exact ⟨rfl, .refused rfl auth⟩
    | ok peerId =>
      simp only [valid, auth, List.filterMap_cons, List.filterMap_nil, responseHeaders,
        List.mem_singleton] at member
      rw [member]
      unfold onEvent at going ⊢
      simp only [H3Session.pollH3Event, waiting, handles, serverHandler, valid, auth] at going ⊢
      cases sendError with
      | some error =>
        -- the server has given up, so nothing was answered
        simp [failTurn, isHandshake, exit] at going
      | none =>
        obtain ⟨codec, _, isBound⟩ := session.bindConnectStream_isSome streamId
        refine ⟨trivial, .admitted rfl ?_ ?_⟩
        · simp [accepted, isBound]
        · simp [bound, isBound]

theorem answers_onEvent {tokens : List (String × String)} {session : H3Session}
    {streamId : UInt64} {event : H3Event} {key : HmacKey} {sendError : Option String}
    {flushed : Bool} {item : UInt64 × List Header}
    (member : item ∈ engine.answered
      (engine.onEvent (.server tokens) session streamId event key sendError flushed)) :
    ∃ list, event = .headers list ∧ item.1 = streamId ∧ session.connectAccepted = false ∧
      Answers tokens list key
        (engine.onEvent (.server tokens) session streamId event key sendError flushed) item := by
  have sent :=
    added_of_outputs (outputs_onEvent (.server tokens) engine session streamId event key
      sendError flushed)
  unfold answered at member
  split at member
  next going =>
    rw [sent] at member
    cases event with
    | headers list =>
      cases waiting : session.connectAccepted with
      | true => simp [H3Session.pollH3Event, waiting, responseHeaders] at member
      | false =>
        cases phase : engine.phase with
        | handshake =>
          have handled :
              (session.pollH3Event (handler (.server tokens) engine.phase session key sendError)
                streamId
              (.headers list)).1 = (serverHandler tokens key sendError streamId list).1 := by
            simp only [H3Session.pollH3Event, waiting, phase, handler, Bool.false_eq_true, if_false]
            split
            next outputs failure decided => rw [decided]
            next outputs decided => rw [decided]
            next outputs sid peerId decided => rw [decided]
          rw [handled] at member
          obtain ⟨stream, answers⟩ := answers_handshake phase waiting (going.trans phase) member
          exact ⟨list, rfl, stream, rfl, answers⟩
        -- After the handshake the engine ignores headers, and it answers nothing.
        | forwarding =>
          simp [H3Session.pollH3Event, waiting, phase, handler, ignoreHandler] at member
        | exited result =>
          simp [H3Session.pollH3Event, waiting, phase, handler, ignoreHandler] at member
        | panicked => simp [H3Session.pollH3Event, waiting, phase, handler, ignoreHandler] at member
    | data => simp [H3Session.pollH3Event] at member
    | finished => simp [H3Session.pollH3Event] at member
    | reset code => simp [H3Session.pollH3Event] at member
    | priorityUpdate => simp [H3Session.pollH3Event] at member
    | goAway => simp [H3Session.pollH3Event] at member
  next => cases member

theorem answers_of_step {tokens : List (String × String)} {input : Input}
    (taken : step (.server tokens) input engine = some next) {item : UInt64 × List Header}
    (member : item ∈ engine.answered next) : ∃ list key sendError flushed,
      input = .event item.1 (.headers list) key sendError flushed ∧ engine.accepted = false ∧
        Answers tokens list key next item := by
  have silent (same : next.outputs = engine.outputs) : False := by
    have none : engine.added next = [] := added_of_outputs (by rw [same, List.append_nil])
    simp [answered, none] at member
  rcases outputs_of_step taken with same | ⟨arrival, rfl⟩ | ⟨streamId, event, key, sendError,
    flushed, rfl⟩
  · exact (silent same).elim
  · have received := receive_of_step taken
    rcases receive_opened (.server tokens) engine arrival with ⟨_, same⟩ | ⟨_, same⟩
    · exact (silent (by rw [received, same])).elim
    · exact (silent (by rw [received, same, openSession_server])).elim
  · obtain ⟨session, current, rfl⟩ := session_of_event taken
    obtain ⟨list, rfl, stream, waiting, answers⟩ := answers_onEvent member
    refine ⟨list, key, sendError, flushed, by rw [stream], ?_, answers⟩
    simp [accepted, current, waiting]

end Steps

end H3Engine

/-! ## Agreement -/

namespace Tunnel

section Agreement

variable [Hmac] {request : ConnectRequest} {tokens : List (String × String)}

def sentHeaders (request : ConnectRequest) : List Header :=
  connectHeaders request.authority request.connectPath request.authHeader

structure Agrees (request : ConnectRequest) (tokens : List (String × String))
    (tunnel : Tunnel) : Prop where
  clientSound : H3Engine.Sound (.client request) tunnel.client
  serverSound : H3Engine.Sound (.server tokens) tunnel.server
  requested : ∀ item ∈ tunnel.requests, tunnel.client.bound = some item.1 ∧
    item.2 = sentHeaders request
  answered : ∀ item ∈ tunnel.responses, tunnel.client.bound = some item.1 ∧
    (responseStatus item.2 = some "401" ∧
      (∃ key reason, validateServerAuth key (sentHeaders request) tokens = .error reason) ∨
      responseStatus item.2 = some "200" ∧ tunnel.server.accepted = true)
  admitted : tunnel.server.accepted = true → tunnel.server.bound = tunnel.client.bound ∧
    ∃ key, validateServerAuth key (sentHeaders request) tokens = .ok tunnel.server.identity
  agreed : tunnel.client.accepted = true → tunnel.server.accepted = true

theorem agrees_new (peerId placeholder : String) : Agrees request tokens (new peerId placeholder) :=
  ⟨H3Engine.sound_new _ _, H3Engine.sound_new _ _, nofun, nofun, nofun, nofun⟩

omit [Hmac] in
theorem bound_of_accepted {role : Role} {engine : H3Engine} (sound : H3Engine.Sound role engine)
    (accepted : engine.accepted = true) :
    ∃ streamId codec, engine.bound = some streamId ∧ engine.codec = some codec ∧
      ConnectIpDatagramCodec.new streamId = some codec := by
  obtain ⟨session, current, isAccepted⟩ := H3Engine.accepted_iff.mp accepted
  obtain ⟨streamId, bound, coded⟩ := sound.coded session current isAccepted
  refine ⟨streamId, session.datagramCodec, ?_, ?_, coded⟩
  · rw [H3Engine.bound, current, Option.bind_some, bound]
  · rw [H3Engine.codec, current, Option.map_some]

theorem bound_client {engine next : H3Engine} {input : Input} {streamId : UInt64}
    (taken : engine.step (.client request) input = some next)
    (bound : engine.bound = some streamId) : next.bound = some streamId := by
  have hasSession : engine.session.isSome := by
    cases current : engine.session with
    | none => simp [H3Engine.bound, current] at bound
    | some session => rfl
  rw [(H3Engine.bound_step_of_client hasSession taken).2, bound]

theorem agrees_client {tunnel : Tunnel} {client : H3Engine} {input : Input}
    (agrees : Agrees request tokens tunnel) (delivered : Delivered tunnel (.client input))
    (taken : tunnel.client.step (.client request) input = some client) :
    Agrees request tokens
      { tunnel with
        client
        requests := tunnel.requests ++ tunnel.client.issued client input } := by
  constructor
  · exact H3Engine.sound_step agrees.clientSound taken
  · exact agrees.serverSound
  · intro item member
    rcases List.mem_append.mp member with old | issued
    · obtain ⟨bound, headers⟩ := agrees.requested item old
      exact ⟨bound_client taken bound, headers⟩
    · obtain ⟨_, bound, headers⟩ := H3Engine.issued_of_step taken issued
      exact ⟨bound, headers⟩
  · intro item member
    obtain ⟨bound, status⟩ := agrees.answered item member
    exact ⟨bound_client taken bound, status⟩
  · intro accepted
    obtain ⟨same, auth⟩ := agrees.admitted accepted
    obtain ⟨streamId, _, bound, _⟩ := bound_of_accepted agrees.serverSound accepted
    refine ⟨?_, auth⟩
    rw [bound, bound_client taken (same.symm.trans bound)]
  · intro accepted
    cases before : tunnel.client.accepted with
    | true => exact agrees.agreed before
    | false =>
      have cause := H3Engine.acceptedBy_of_step taken before accepted
      cases input with
      | event streamId event key sendError flushed =>
        cases event with
        | headers list =>
          -- Accepted by a status that was delivered, which the listener sends on acceptance only.
          obtain ⟨_, _, isOk, _⟩ := cause
          obtain ⟨_, ⟨refused, _⟩ | ⟨_, server⟩⟩ := agrees.answered _ delivered
          · rw [isOk] at refused
            exact absurd refused (by decide)
          · exact server
        | _ => cases cause
      | _ => cases cause

theorem agrees_server {tunnel : Tunnel} {server : H3Engine} {input : Input}
    (agrees : Agrees request tokens tunnel) (delivered : Delivered tunnel (.server input))
    (taken : tunnel.server.step (.server tokens) input = some server) :
    Agrees request tokens
      { tunnel with
        server
        responses := tunnel.responses ++ tunnel.server.answered server } := by
  have stays (accepted : tunnel.server.accepted = true) :=
    H3Engine.settled_step agrees.serverSound accepted taken
  constructor
  · exact agrees.clientSound
  · exact H3Engine.sound_step agrees.serverSound taken
  · exact agrees.requested
  · intro item member
    rcases List.mem_append.mp member with old | answered
    · obtain ⟨bound, refused | ⟨status, accepted⟩⟩ := agrees.answered item old
      · exact ⟨bound, .inl refused⟩
      · exact ⟨bound, .inr ⟨status, (stays accepted).accepted⟩⟩
    · obtain ⟨list, key, sendError, flushed, rfl, _, answers⟩ :=
        H3Engine.answers_of_step taken answered
      obtain ⟨bound, headers⟩ := agrees.requested _ delivered
      have sent : list = sentHeaders request := headers
      subst sent
      refine ⟨bound, ?_⟩
      cases answers with
      -- The request of a dialer is well formed, whatever its token is.
      | malformed _ invalid =>
        exact absurd (validateServerConnectHeaders_connectHeaders _ _ _) invalid
      | refused status unauthorized => exact .inl ⟨status, key, _, unauthorized⟩
      | admitted status accepted _ => exact .inr ⟨status, accepted⟩
  · intro accepted
    cases before : tunnel.server.accepted with
    | true =>
      have settled := stays before
      rw [settled.bound, settled.identity]
      exact agrees.admitted before
    | false =>
      have cause := H3Engine.acceptedBy_of_step taken before accepted
      cases input with
      | event streamId event key sendError flushed =>
        cases event with
        | headers list =>
          obtain ⟨isBound, _, auth⟩ := cause
          obtain ⟨bound, headers⟩ := agrees.requested _ delivered
          have sent : list = sentHeaders request := headers
          subst sent
          exact ⟨isBound.trans bound.symm, key, auth⟩
        | _ => cases cause
      | _ => cases cause
  · intro accepted
    exact (stays (agrees.agreed accepted)).accepted

theorem agrees_of_reaches {peerId placeholder : String} {tunnel : Tunnel}
    (reached : Reaches (step request tokens) Delivered (new peerId placeholder) tunnel) :
    Agrees request tokens tunnel := by
  induction reached with
  | refl => exact agrees_new peerId placeholder
  | @next before after action _ delivered taken ih =>
    cases action with
    | client input =>
      obtain ⟨client, moved, rfl⟩ := Option.map_eq_some_iff.mp taken
      exact agrees_client ih delivered moved
    | server input =>
      obtain ⟨server, moved, rfl⟩ := Option.map_eq_some_iff.mp taken
      exact agrees_server ih delivered moved

theorem validateServerAuth_sentHeaders {token : String} (unambiguous : Unambiguous tokens)
    (bearer : request.authHeader = bearerAuthHeader token) (key : HmacKey) (peerId : String) :
    validateServerAuth key (sentHeaders request) tokens = .ok peerId ↔ token ≠ "" ∧
    (peerId, token) ∈ tokens := by
  rw [validateServerAuth_ok_iff unambiguous, sentHeaders, authorization_connectHeaders, bearer]
  constructor
  · rintro ⟨header, other, found, nonempty, decoded, stored⟩
    rw [← Option.some.inj found, fromUtf8Lossy_asBytes, bearerAuthHeader, bearerAuthHeader,
      ← String.toList_inj, String.toList_append,
      String.toList_append] at decoded
    have same : token = other := String.toList_inj.mp (List.append_cancel_left decoded)
    rw [same]
    exact ⟨nonempty, stored⟩
  · rintro ⟨nonempty, stored⟩
    exact ⟨_, token, rfl, nonempty, fromUtf8Lossy_asBytes _, stored⟩

open H3llo.Udp.ConsumeBuffer (visible headroom) in
/-- In every run of the two ends against each other: a dialer is accepted only by a listener that
has accepted it, for the peer that has the dialer's token; both are then on the same stream with the
same codec, so each takes the other's datagrams apart; and the answer to the request depends on
the token alone. -/
theorem connect_ip_agreement {token peerId placeholder : String} {tunnel : Tunnel}
    (unambiguous : Unambiguous tokens) (bearer : request.authHeader = bearerAuthHeader token)
    (reached : Reaches (step request tokens) Delivered (new peerId placeholder) tunnel) :
    (tunnel.client.accepted = true → tunnel.server.accepted = true) ∧
    (tunnel.server.accepted = true → (tunnel.server.identity, token) ∈ tokens ∧
      ∃ streamId codec, tunnel.client.bound = some streamId ∧ tunnel.server.bound = some streamId ∧
        tunnel.server.codec = some codec ∧
        (tunnel.client.accepted = true → tunnel.client.codec = some codec) ∧
        ∀ (Buf : Type) [PrefixBuffer Buf] (packet : Buf), visible packet ≠ [] →
          9 ≤ headroom packet →
          ∃ framed restored, codec.prepend packet = (true, framed) ∧
            codec.strip framed = some (true, restored) ∧
            visible restored = visible packet) ∧
    ((∃ owner, (owner, token) ∈ tokens) → token ≠ "" →
      ∀ item ∈ tunnel.responses, responseStatus item.2 = some "200") ∧
    ((∀ owner, (owner, token) ∉ tokens) → tunnel.server.accepted = false ∧
      tunnel.client.accepted = false ∧
      ∀ item ∈ tunnel.responses, responseStatus item.2 = some "401") := by
  -- Everything follows from the invariant of both ends and from who passes the check of the token.
  have agrees := agrees_of_reaches reached
  have granted (key : HmacKey) (owner : String) :=
    validateServerAuth_sentHeaders unambiguous bearer key owner
  refine ⟨agrees.agreed, fun accepted => ?_, ?_, fun unlisted => ?_⟩
  · obtain ⟨same, key, auth⟩ := agrees.admitted accepted
    obtain ⟨streamId, codec, bound, coded, made⟩ := bound_of_accepted agrees.serverSound accepted
    refine ⟨((granted key _).mp auth).2, streamId, codec, same.symm.trans bound, bound, coded,
      fun isClient => ?_, ?_⟩
    -- Both codecs are made of the one stream.
    · obtain ⟨other, otherCodec, otherBound, otherCoded, otherMade⟩ :=
        bound_of_accepted agrees.clientSound isClient
      rw [← same, bound, Option.some.injEq] at otherBound
      rw [← otherBound, made] at otherMade
      rw [otherCoded, otherMade]
    · intro Buf _ packet nonempty room
      exact ConnectIpDatagramCodec.strip_prepend (ConnectIpDatagramCodec.for_of_new made)
        nonempty room
  · rintro ⟨owner, listed⟩ nonempty item member
    obtain ⟨_, ⟨_, key, reason, refused⟩ | ⟨status, _⟩⟩ := agrees.answered item member
    -- A refusal with 401 would contradict the check, which the owner passes.
    · rw [(granted key owner).mpr ⟨nonempty, listed⟩] at refused
      cases refused
    · exact status
  · have noServer : tunnel.server.accepted = false := by
      rw [← Bool.not_eq_true]
      intro accepted
      obtain ⟨_, key, auth⟩ := agrees.admitted accepted
      exact unlisted _ ((granted key _).mp auth).2
    refine ⟨noServer, ?_, fun item member => ?_⟩
    · rw [← Bool.not_eq_true]
      intro accepted
      rw [agrees.agreed accepted] at noServer
      cases noServer
    · obtain ⟨_, ⟨status, _⟩ | ⟨_, accepted⟩⟩ := agrees.answered item member
      · exact status
      · rw [accepted] at noServer
        cases noServer

end Agreement

/-! ## A tunnel that comes up -/

instance (tunnel : Tunnel) (action : TunnelAction) : Decidable (Delivered tunnel action) := by
  unfold Delivered
  split <;> infer_instance

def sampleRequest : ConnectRequest := ⟨"relay.example", "/", bearerAuthHeader "secret-token", 5⟩

def sampleTokens : List (String × String) := [("laptop", "secret-token")]

def sampleActions : List TunnelAction :=
  let arrival : Arrival := ⟨true, none, true, .ok 4, true, false⟩
  let granted : List Header :=
    [⟨asBytes ":status", asBytes "200"⟩, ⟨asBytes "capsule-protocol", asBytes "?1"⟩]
  [.client (.receive arrival), .server (.receive arrival),
    .server (.event 4 (.headers (sentHeaders sampleRequest)) (fun _ => 0) none true),
      .server (.done true true false),
    .client (.event 4 (.headers granted) (fun _ => 0) none true), .client (.done true true false)]

theorem connect_ip_agreement_sample : ∃ tunnel,
    Reaches (@step plainHmac sampleRequest sampleTokens) Delivered
      (new "relay" "unauthenticated") tunnel ∧
    tunnel.client.accepted = true ∧ (tunnel.server.identity, "secret-token") ∈ sampleTokens := by
  have comesUp :
      ((run (guarded (@step plainHmac sampleRequest sampleTokens) Delivered) sampleActions
      (new "relay" "unauthenticated")).map fun tunnel => tunnel.client.accepted) =
        some true := by decide +kernel
  obtain ⟨tunnel, executed, accepted⟩ := Option.map_eq_some_iff.mp comesUp
  have reached := reaches_of_guarded_run executed
  have unambiguous : Unambiguous sampleTokens := by simp [Unambiguous, sampleTokens]
  have agreement := @connect_ip_agreement plainHmac sampleRequest sampleTokens "secret-token" _ _ _
    unambiguous rfl reached
  exact ⟨tunnel, reached, accepted, (agreement.2.1 (agreement.1 accepted)).1⟩

end Tunnel
end H3llo.H3
