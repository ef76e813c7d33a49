import H3llo.Basis.Runs
import H3llo.H3.Session

/-! The life of a connection's engine, for both roles.

A server accepts and a client establishes; both then forward datagrams. The session is
polled after every batch of packets that was received. Nothing else happens while it is
polled, so each event is a step of its own.
-/

set_option autoImplicit false

namespace H3llo.H3
open H3llo.Runs H3llo.Net.Utf8

structure ConnectRequest where
  authority : String
  connectPath : String
  authHeader : String
  timeout : Nat
  deriving DecidableEq, Repr

inductive Role where
  | server (peerTokens : List (String × String))
  | client (request : ConnectRequest)
  deriving DecidableEq, Repr

inductive DialError where
  | handshake (reason : String)
  | rejected (status : String)
  | timeout (after : Nat)
  deriving DecidableEq, Repr

def DialError.ofFailure : ConnectFailure → DialError
  | .rejected status => .rejected status
  | .closed reason | .poll reason => .handshake reason

/-- How an engine ends: a failed handshake of either role, or the result of its run. -/
inductive Exit where
  | accept (reason : String)
  | dial (error : DialError)
  | run (failure : Option String)
  deriving DecidableEq, Repr

inductive Phase where
  | handshake
  | forwarding
  | exited (result : Exit)
  | panicked
  deriving DecidableEq, Repr

structure H3Engine where
  phase : Phase
  polling : Bool
  session : Option H3Session
  peerId : String
  outputs : List Output
  deriving DecidableEq, Repr

structure Arrival where
  established : Bool
  openError : Option String
  settingsFlushed : Bool
  request : Except String UInt64
  flushed : Bool
  closed : Bool

inductive Input where
  | receive (arrival : Arrival)
  | event (streamId : UInt64) (event : H3Event) (key : HmacKey) (sendError : Option String)
      (flushed : Bool)
  | done (dgramEnabledByPeer flushed closed : Bool)
  | pollError (error : String) (flushed : Bool)
  | timer (flushed closed : Bool)
  | deadline (flushed : Bool)
  | rxClosed
  | stop

namespace H3Engine

def new (peerId : String) : H3Engine := ⟨.handshake, false, none, peerId, []⟩

def exit (engine : H3Engine) (result : Exit) : H3Engine :=
  { engine with phase := .exited result, polling := false }

def panic (engine : H3Engine) : H3Engine := { engine with phase := .panicked, polling := false }

def txClosed : String := "UDP TX actor channel closed"

def handshakeError (role : Role) (reason : String) : Exit :=
  match role with
  | .server _ => .accept reason
  | .client _ => .dial (.handshake reason)

def endTurn (role : Role) (engine : H3Engine) (flushed closed : Bool) : H3Engine :=
  if flushed = false then engine.exit (handshakeError role txClosed)
  else if closed then
    engine.exit (handshakeError role (match role with
      | .server _ => "QUIC connection closed during handshake"
      | .client _ => "QUIC connection closed during startup"))
  else { engine with polling := false }

def failTurn (role : Role) (engine : H3Engine) (failure : ConnectFailure)
    (flushed : Bool) : H3Engine :=
  match engine.phase with
  | .handshake =>
      match role with
      | .server _ => engine.exit (.accept (if flushed then failure.intoActorReason else txClosed))
      | .client _ => engine.exit (.dial (.ofFailure failure))
  | _ => engine.exit (.run (some failure.intoActorReason))

def sendConnectRequest (role : Role) (engine : H3Engine) (session : H3Session)
    (request : ConnectRequest) (sent : Except String UInt64) : H3Engine :=
  let headers := connectHeaders request.authority request.connectPath request.authHeader
  let engine : H3Engine :=
    { engine with session := some session, outputs := engine.outputs ++ [.request headers] }
  match sent with
  | .error error => engine.exit (handshakeError role ("send CONNECT: " ++ error))
  | .ok streamId =>
      match session.bindConnectStream streamId with
      | none => engine.panic
      | some bound => { engine with session := some bound }

/-- Create the session once the transport is established; a client sends its request. -/
def openSession (role : Role) (engine : H3Engine) (arrival : Arrival) : H3Engine :=
  if engine.session.isNone ∧ arrival.established then
    match arrival.openError with
    | some error => engine.exit (handshakeError role error)
    | none =>
        match H3Session.withTransport with
        | none => engine.panic
        | some session =>
            match role with
            | .server _ => { engine with session := some session }
            | .client request =>
                if arrival.settingsFlushed then
                  engine.sendConnectRequest role session request arrival.request
                else engine.exit (handshakeError role txClosed)
  else engine

def receive (role : Role) (engine : H3Engine) (arrival : Arrival) : H3Engine :=
  match engine.phase with
  | .handshake =>
      let engine := engine.openSession role arrival
      if engine.phase ≠ .handshake then engine
      else if engine.session.isSome then { engine with polling := true }
      else engine.endTurn role arrival.flushed arrival.closed
  | _ => { engine with polling := true }

section Steps

variable [Hmac]

def handler (role : Role) (phase : Phase) (session : H3Session) (key : HmacKey)
    (sendError : Option String) : UInt64 → List Header → Handled :=
  match phase with
  | .handshake =>
      match role with
      | .server peerTokens => serverHandler peerTokens key sendError
      -- The stream is bound before polling starts, and until the handler accepts it stays the same.
      | .client _ => clientHandler session.connectStreamId
  | _ => ignoreHandler

theorem handshake_of_accept {role : Role} {phase : Phase} {session : H3Session} {key : HmacKey}
    {sendError : Option String} {streamId sid : UInt64} {list : List Header}
    {peerId : Option String}
    (decided : (handler role phase session key sendError streamId list).2 =
      .ok (.accept sid peerId)) :
    phase = .handshake := by
  cases phase with
  | handshake => rfl
  | forwarding => cases decided
  | exited result => cases decided
  | panicked => cases decided

def onEvent (role : Role) (engine : H3Engine) (session : H3Session) (streamId : UInt64)
    (event : H3Event) (key : HmacKey) (sendError : Option String) (flushed : Bool) : H3Engine :=
  let (outputs, result) := session.pollH3Event (handler role engine.phase session key sendError)
    streamId event
  let engine := { engine with outputs := engine.outputs ++ outputs }
  match result with
  | none => engine.panic
  | some (.error failure) => engine.failTurn role failure flushed
  | some (.ok session) => { engine with session := some session }

def onDone (role : Role) (engine : H3Engine) (session : H3Session)
    (dgramEnabledByPeer flushed closed : Bool) : H3Engine :=
  match engine.phase with
  | .handshake =>
      match session.progress dgramEnabledByPeer with
      | .pending => engine.endTurn role flushed closed
      | .ready =>
          match role with
          | .client _ => { engine with phase := .forwarding, polling := false }
          | .server _ =>
              match session.acceptedPeerId with
              | none => engine.panic
              | some peerId =>
                  -- A failed flush drops the engine together with its session.
                  if flushed = false then engine.exit (.accept txClosed)
                  else
                    { engine with
                      phase := .forwarding, polling := false, peerId
                      session := some { session with acceptedPeerId := none } }
  | _ => { engine with polling := false }

def onDeadline (role : Role) (engine : H3Engine) (flushed : Bool) : H3Engine :=
  if flushed = false then engine.exit (handshakeError role txClosed)
  else
    match role with
    | .server _ => engine.exit (.accept "handshake timeout")
    | .client request => engine.exit (.dial (.timeout request.timeout))

def onRxClosed (role : Role) (engine : H3Engine) : H3Engine :=
  match engine.phase with
  | .handshake =>
      engine.exit (handshakeError role (match role with
        | .server _ => "udp rx closed during handshake"
        | .client _ => "UDP Rx closed during startup"))
  | _ => engine.exit (.run none)

def step (role : Role) (input : Input) (engine : H3Engine) : Option H3Engine :=
  if engine.phase ≠ .handshake ∧ engine.phase ≠ .forwarding then none
  else
    match input, engine.polling, engine.session with
    | .event streamId event key sendError flushed, true, some session =>
        some (engine.onEvent role session streamId event key sendError flushed)
    | .done dgramEnabledByPeer flushed closed, true, some session =>
        some (engine.onDone role session dgramEnabledByPeer flushed closed)
    | .pollError error flushed, true, some _ =>
        some (engine.failTurn role (.poll ("H3 poll: " ++ error)) flushed)
    | .receive arrival, false, _ => some (engine.receive role arrival)
    | .timer flushed closed, false, _ =>
        if engine.phase = .handshake then some (engine.endTurn role flushed closed) else some engine
    | .deadline flushed, false, _ =>
        if engine.phase = .handshake then some (engine.onDeadline role flushed) else none
    | .rxClosed, false, _ => some (engine.onRxClosed role)
    -- Any other end of the run: a closed channel, or the actor is stopped.
    | .stop, false, _ => if engine.phase = .forwarding then some (engine.exit (.run none)) else none
    | _, _, _ => none

end Steps

/-! ## What a step can do -/

def Continues (engine next : H3Engine) : Prop :=
  next.phase = engine.phase ∨ ∃ result, next.phase = .exited result

structure Keeps (engine next : H3Engine) : Prop where
  session : next.session = engine.session
  peerId : next.peerId = engine.peerId
  phase : Continues engine next

theorem keeps_exit (engine : H3Engine) (result : Exit) : Keeps engine (engine.exit result) :=
  ⟨rfl, rfl, .inr ⟨result, rfl⟩⟩

theorem keeps_endTurn (role : Role) (engine : H3Engine) (flushed closed : Bool) :
    Keeps engine (engine.endTurn role flushed closed) := by
  unfold endTurn
  split_ifs
  · exact keeps_exit engine _
  · exact keeps_exit engine _
  · exact ⟨rfl, rfl, .inl rfl⟩

theorem failTurn_exits (role : Role) (engine : H3Engine) (failure : ConnectFailure)
    (flushed : Bool) :
    ∃ result, engine.failTurn role failure flushed = engine.exit result ∧ result ≠ .run none := by
  unfold failTurn
  cases engine.phase with
  | handshake => cases role <;> exact ⟨_, rfl, nofun⟩
  | forwarding => exact ⟨_, rfl, nofun⟩
  | exited result => exact ⟨_, rfl, nofun⟩
  | panicked => exact ⟨_, rfl, nofun⟩

theorem keeps_onDeadline (role : Role) (engine : H3Engine) (flushed : Bool) :
    Keeps engine (engine.onDeadline role flushed) := by
  unfold onDeadline
  split_ifs
  · exact keeps_exit engine _
  · cases role <;> exact keeps_exit engine _

theorem keeps_onRxClosed (role : Role) (engine : H3Engine) :
    Keeps engine (engine.onRxClosed role) := by
  unfold onRxClosed
  split <;> exact keeps_exit engine _

structure Opens (engine next : H3Engine) (session : H3Session) : Prop where
  absent : engine.session = none
  created : next.session = some session
  fresh : session.connectAccepted = false ∧ session.acceptedPeerId = none
  peerId : next.peerId = engine.peerId
  phase : Continues engine next

theorem opens_sendConnectRequest (role : Role) {engine : H3Engine} {session : H3Session}
    (request : ConnectRequest) (sent : Except String UInt64) (absent : engine.session = none)
    (fresh : session.connectAccepted = false ∧ session.acceptedPeerId = none) :
    ∃ opened, Opens engine (engine.sendConnectRequest role session request sent) opened := by
  unfold sendConnectRequest
  cases sent with
  | error error => exact ⟨session, absent, rfl, fresh, rfl, .inr ⟨_, rfl⟩⟩
  | ok streamId =>
    obtain ⟨bound, _, isBound⟩ := session.bindConnectStream_isSome streamId
    simp only [isBound]
    exact ⟨_, absent, rfl, fresh, rfl, .inl rfl⟩

theorem openSession_cases (role : Role) (engine : H3Engine) (arrival : Arrival) :
    Keeps engine (engine.openSession role arrival) ∨ ∃ session,
    Opens engine (engine.openSession role arrival) session := by
  unfold openSession
  by_cases create : engine.session.isNone ∧ arrival.established
  · have absent : engine.session = none := Option.isNone_iff_eq_none.mp create.1
    obtain ⟨codec, _, made⟩ := H3Session.withTransport_isSome
    rw [if_pos create, made]
    cases arrival.openError with
    | some error => exact .inl (keeps_exit engine _)
    | none =>
      cases role with
      | server tokens => exact .inr ⟨_, absent, rfl, ⟨rfl, rfl⟩, rfl, .inl rfl⟩
      | client request =>
        cases arrival.settingsFlushed with
        | false => exact .inl (keeps_exit engine _)
        | true => exact .inr (opens_sendConnectRequest _ request arrival.request absent ⟨rfl, rfl⟩)
  · rw [if_neg create]
    exact .inl ⟨rfl, rfl, .inl rfl⟩

theorem receive_cases (role : Role) (engine : H3Engine) (arrival : Arrival) :
    Keeps engine (engine.receive role arrival) ∨ ∃ session,
    Opens engine (engine.receive role arrival) session := by
  unfold receive
  split
  next isHandshake =>
    have opening := openSession_cases role engine arrival
    generalize engine.openSession role arrival = opened at opening
    by_cases ended : opened.phase ≠ .handshake
    · rw [if_pos ended]
      exact opening
    · rw [if_neg ended]
      rcases opening with same | ⟨session, created⟩
      · left
        split
        next => exact ⟨same.session, same.peerId, same.phase⟩
        next =>
          have turn := keeps_endTurn role opened arrival.flushed arrival.closed
          refine ⟨turn.session.trans same.session, turn.peerId.trans same.peerId, ?_⟩
          rcases turn.phase with going | exited
          · unfold Continues
            rw [going]
            exact same.phase
          · exact .inr exited
      · right
        rw [created.created]
        exact ⟨session, created.absent, rfl, created.fresh, created.peerId, created.phase⟩
  next => exact .inl ⟨rfl, rfl, .inl rfl⟩

section Moves

variable [Hmac]

/-- Everything that a step can do to the session, the peer and the phase. -/
inductive Moves (role : Role) (engine : H3Engine) : Input → H3Engine → Prop where
  | keeps {input : Input} {next : H3Engine} (same : Keeps engine next) :
      Moves role engine input next
  | opens {arrival : Arrival} {next : H3Engine} {session : H3Session}
      (opened : Opens engine next session) :
      Moves role engine (.receive arrival) next
  | accepts {next : H3Engine} {session : H3Session} {streamId sid : UInt64} {list : List Header}
      {key : HmacKey} {sendError : Option String} {flushed : Bool} {peerId : Option String}
      {codec : ConnectIpDatagramCodec} (current : engine.session = some session)
      (first : session.connectAccepted = false)
      (decided : (handler role engine.phase session key sendError streamId list).2 =
        .ok (.accept sid peerId))
      (coded : ConnectIpDatagramCodec.new sid = some codec)
      (bound : next.session = some ⟨some sid, codec, true, peerId⟩)
      (samePeer : next.peerId = engine.peerId) (samePhase : next.phase = engine.phase) :
      Moves role engine (.event streamId (.headers list) key sendError flushed) next
  | establishes {next : H3Engine} {session : H3Session} {dgramEnabledByPeer flushed closed : Bool}
      (current : engine.session = some session) (accepted : session.connectAccepted = true)
      (isClient : ∃ request, role = .client request) (same : next.session = engine.session)
      (samePeer : next.peerId = engine.peerId) (forwards : next.phase = .forwarding) :
      Moves role engine (.done dgramEnabledByPeer flushed closed) next
  | takes {next : H3Engine} {session : H3Session} {peerId : String}
      {dgramEnabledByPeer flushed closed : Bool} (current : engine.session = some session)
      (accepted : session.connectAccepted = true)
      (authenticated : session.acceptedPeerId = some peerId)
      (taken : next.session = some { session with acceptedPeerId := none })
      (peer : next.peerId = peerId) (forwards : next.phase = .forwarding) : Moves role engine
        (.done dgramEnabledByPeer flushed closed) next
  | expects {next : H3Engine} {session : H3Session} {dgramEnabledByPeer flushed closed : Bool}
      (current : engine.session = some session) (accepted : session.connectAccepted = true)
      (isServer : ∃ tokens, role = .server tokens) (isHandshake : engine.phase = .handshake)
      (missing : session.acceptedPeerId = none) : Moves role engine
        (.done dgramEnabledByPeer flushed closed) next

theorem moves_of_onEvent (role : Role) {engine : H3Engine} {session : H3Session}
    (current : engine.session = some session) (streamId : UInt64) (event : H3Event)
    (key : HmacKey) (sendError : Option String) (flushed : Bool) :
    Moves role engine (.event streamId event key sendError flushed)
      (engine.onEvent role session streamId event key sendError flushed) := by
  have polled := @H3Session.polled_of_pollH3Event (handler role engine.phase session key sendError)
    session streamId event
  unfold onEvent
  generalize session.pollH3Event (handler role engine.phase session key sendError) streamId event =
    result at polled
  obtain ⟨outputs, result⟩ := result
  simp only at polled
  cases polled with
  | kept harmless => exact .keeps ⟨current.symm, rfl, .inl rfl⟩
  | @failed _ failure caused =>
    obtain ⟨result, exits, _⟩ :=
      failTurn_exits role { engine with outputs := engine.outputs ++ outputs } failure flushed
    simp only [exits]
    exact .keeps ⟨rfl, rfl, .inr ⟨result, rfl⟩⟩
  | accepted first decided coded => exact .accepts current first decided coded rfl rfl rfl

theorem moves_of_onDone (role : Role) {engine : H3Engine} {session : H3Session}
    (current : engine.session = some session) (dgramEnabledByPeer flushed closed : Bool) :
    Moves role engine (.done dgramEnabledByPeer flushed closed)
      (engine.onDone role session dgramEnabledByPeer flushed closed) := by
  unfold onDone
  split
  next isHandshake =>
    split
    next => exact .keeps (keeps_endTurn role engine flushed closed)
    next isReady =>
      have accepted := H3Session.accepted_of_ready isReady
      cases role with
      | client request => exact .establishes current accepted ⟨request, rfl⟩ rfl rfl rfl
      | server tokens =>
        cases authenticated : session.acceptedPeerId with
        | none => exact .expects current accepted ⟨tokens, rfl⟩ isHandshake authenticated
        | some peerId =>
          simp only
          split_ifs
          · exact .keeps (keeps_exit engine _)
          · exact .takes current accepted authenticated rfl rfl rfl
  next => exact .keeps ⟨rfl, rfl, .inl rfl⟩

theorem moves_of_step {role : Role} {input : Input} {engine next : H3Engine}
    (taken : step role input engine = some next) : Moves role engine input next := by
  unfold step at taken
  split at taken
  next => cases taken
  next =>
    split at taken
    next streamId event key sendError flushed session _ current =>
      cases taken
      exact moves_of_onEvent role current streamId event key sendError flushed
    next dgramEnabledByPeer flushed closed session _ current =>
      cases taken
      exact moves_of_onDone role current dgramEnabledByPeer flushed closed
    next error flushed session _ _ =>
      cases taken
      obtain ⟨result, exits, _⟩ := failTurn_exits role engine (.poll ("H3 poll: " ++ error)) flushed
      rw [exits]
      exact .keeps (keeps_exit engine result)
    next arrival _ =>
      cases taken
      rcases receive_cases role engine arrival with same | ⟨session, opened⟩
      · exact .keeps same
      · exact .opens opened
    next flushed closed _ =>
      split at taken <;> cases taken
      · exact .keeps (keeps_endTurn role engine flushed closed)
      · exact .keeps ⟨rfl, rfl, .inl rfl⟩
    next flushed _ =>
      split at taken <;> cases taken
      exact .keeps (keeps_onDeadline role engine flushed)
    next =>
      cases taken
      exact .keeps (keeps_onRxClosed role engine)
    next =>
      split at taken <;> cases taken
      exact .keeps (keeps_exit engine _)
    next => cases taken

end Moves

/-! ## Runs -/

def accepted (engine : H3Engine) : Bool := engine.session.any H3Session.connectAccepted

def bound (engine : H3Engine) : Option UInt64 := engine.session.bind H3Session.connectStreamId

def codec (engine : H3Engine) : Option ConnectIpDatagramCodec :=
  engine.session.map H3Session.datagramCodec

def identity (engine : H3Engine) : String :=
  (engine.session.bind H3Session.acceptedPeerId).getD engine.peerId

theorem accepted_iff {engine : H3Engine} :
    engine.accepted = true ↔ ∃ session, engine.session = some session ∧
      session.connectAccepted = true := by
  rw [accepted, Option.any_eq_true]

structure Sound (role : Role) (engine : H3Engine) : Prop where
  alive : engine.phase ≠ .panicked
  coded : ∀ session, engine.session = some session → session.connectAccepted = true →
    ∃ sid, session.connectStreamId = some sid ∧ ConnectIpDatagramCodec.new sid =
      some session.datagramCodec
  authenticated : ∀ tokens, role = .server tokens → engine.phase = .handshake →
    ∀ session, engine.session = some session → session.connectAccepted = true →
      session.acceptedPeerId.isSome
  forwarding : engine.phase = .forwarding → engine.accepted = true

theorem sound_new (role : Role) (peerId : String) : Sound role (new peerId) :=
  ⟨nofun, nofun, nofun, nofun⟩

theorem Continues.phase {engine next : H3Engine} {phase : Phase}
    (continues : Continues engine next) (reached : next.phase = phase)
    (going : ∀ result, phase ≠ .exited result) : engine.phase = phase := by
  rcases continues with same | ⟨result, exited⟩
  · rw [← same, reached]
  · exact absurd (reached.symm.trans exited) (going result)

theorem Keeps.sound {role : Role} {engine next : H3Engine} (same : Keeps engine next)
    (sound : Sound role engine) : Sound role next where
  alive panicked := sound.alive (same.phase.phase panicked nofun)
  coded session current := sound.coded session (same.session ▸ current)
  authenticated tokens isServer isHandshake session current :=
    sound.authenticated tokens isServer (same.phase.phase isHandshake nofun) session
      (same.session ▸ current)
  forwarding forwards := by
    rw [accepted, same.session]
    exact sound.forwarding (same.phase.phase forwards nofun)

theorem Sound.peer_known {role : Role} {engine : H3Engine} {session : H3Session}
    (sound : Sound role engine) (isServer : ∃ tokens, role = .server tokens)
    (isHandshake : engine.phase = .handshake) (current : engine.session = some session)
    (isAccepted : session.connectAccepted = true) : session.acceptedPeerId ≠ none := by
  obtain ⟨tokens, isServer⟩ := isServer
  exact Option.isSome_iff_ne_none.mp
    (sound.authenticated tokens isServer isHandshake session current isAccepted)

section Invariant

variable [Hmac] {role : Role} {engine next later : H3Engine} {input : Input}

theorem sound_step (sound : Sound role engine)
    (taken : step role input engine = some next) : Sound role next := by
  cases moves_of_step taken with
  | keeps same => exact same.sound sound
  | opens opened =>
    have fresh (session : H3Session) (current : next.session = some session) :
        session.connectAccepted = false := by
      rw [opened.created, Option.some.injEq] at current
      rw [← current]
      exact opened.fresh.1
    refine ⟨fun panicked => sound.alive (opened.phase.phase panicked nofun), ?_, ?_,
      fun forwards => ?_⟩
    · intro session current isAccepted
      simp [fresh session current] at isAccepted
    · intro tokens isServer isHandshake session current isAccepted
      simp [fresh session current] at isAccepted
    · -- before there is a session nothing is forwarded
      have early := sound.forwarding (opened.phase.phase forwards nofun)
      simp [accepted, opened.absent] at early
  -- The handler has just accepted, and the codec was made for the stream of this request.
  | accepts current first decided coded bound samePeer samePhase =>
    refine ⟨samePhase ▸ sound.alive, ?_, ?_, fun forwards => by simp [accepted, bound]⟩
    · intro other isCurrent _
      rw [bound, Option.some.injEq] at isCurrent
      subst isCurrent
      exact ⟨_, rfl, coded⟩
    -- In its handshake the server accepts only with the id of an authenticated peer.
    · rintro tokens rfl isHandshake other isCurrent _
      rw [bound, Option.some.injEq] at isCurrent
      subst isCurrent
      rw [← samePhase, isHandshake] at decided
      obtain ⟨_, _, id, rfl, _⟩ := serverHandler_accept decided
      rfl
  | establishes current isAccepted isClient same samePeer forwards =>
    refine ⟨by simp [forwards], ?_, by simp [forwards], fun _ => ?_⟩
    · intro session isCurrent
      exact sound.coded session (same ▸ isCurrent)
    · rw [accepted, same]
      exact accepted_iff.mpr ⟨_, current, isAccepted⟩
  | takes current isAccepted authenticated isTaken peer forwards =>
    refine ⟨by simp [forwards], ?_, by simp [forwards],
      fun _ => by simp [accepted, isTaken, isAccepted]⟩
    intro other isCurrent _
    rw [isTaken, Option.some.injEq] at isCurrent
    subst isCurrent
    have known := sound.coded _ current isAccepted
    exact known
  -- The server takes the peer of an accepted session, which is there by the invariant.
  | expects current isAccepted isServer isHandshake missing =>
    exact absurd missing (sound.peer_known isServer isHandshake current isAccepted)

theorem sound_of_reaches {peerId : String}
    (reached : Reaches (step role) (fun _ _ => True) (new peerId) engine) : Sound role engine := by
  induction reached with
  | refl => exact sound_new role peerId
  | next _ _ taken ih => exact sound_step ih taken

structure Settled (engine later : H3Engine) : Prop where
  accepted : later.accepted = true
  bound : later.bound = engine.bound
  codec : later.codec = engine.codec
  identity : later.identity = engine.identity

omit [Hmac] in
theorem settled_of_same (isAccepted : engine.accepted = true)
    (session : next.session = engine.session) (peerId : next.peerId = engine.peerId) :
    Settled engine next where
  accepted := by rwa [H3Engine.accepted, session]
  bound := by rw [H3Engine.bound, session, H3Engine.bound]
  codec := by rw [H3Engine.codec, session, H3Engine.codec]
  identity := by rw [H3Engine.identity, session, peerId, H3Engine.identity]

theorem settled_step (sound : Sound role engine) (isAccepted : engine.accepted = true)
    (taken : step role input engine = some next) : Settled engine next := by
  obtain ⟨session, current, sessionAccepted⟩ := accepted_iff.mp isAccepted
  cases moves_of_step taken with
  | keeps same => exact settled_of_same isAccepted same.session same.peerId
  | opens opened =>
    rw [opened.absent] at current
    cases current
  | accepts isCurrent first =>
    rw [current, Option.some.injEq] at isCurrent
    rw [← isCurrent, sessionAccepted] at first
    cases first
  | establishes _ _ _ same samePeer => exact settled_of_same isAccepted same samePeer
  | takes isCurrent _ authenticated isTaken peer =>
    rw [current, Option.some.injEq] at isCurrent
    subst isCurrent
    refine ⟨by simp [accepted, isTaken, sessionAccepted], by simp [bound, isTaken, current],
      by simp [codec, isTaken, current], by simp [identity, isTaken, current, authenticated, peer]⟩
  | expects isCurrent accepted isServer isHandshake missing =>
    exact absurd missing (sound.peer_known isServer isHandshake isCurrent accepted)

theorem settled_of_reaches (sound : Sound role engine) (isAccepted : engine.accepted = true)
    (reached : Reaches (step role) (fun _ _ => True) engine later) :
    Settled engine later ∧ Sound role later := by
  induction reached with
  | refl => exact ⟨⟨isAccepted, rfl, rfl, rfl⟩, sound⟩
  | next _ _ taken ih =>
    obtain ⟨settled, isSound⟩ := ih
    have further := settled_step isSound settled.accepted taken
    exact ⟨⟨further.accepted, further.bound.trans settled.bound, further.codec.trans settled.codec,
      further.identity.trans settled.identity⟩, sound_step isSound taken⟩

theorem bound_step_of_client {request : ConnectRequest} (hasSession : engine.session.isSome)
    (taken : step (.client request) input engine = some next) :
    next.session.isSome ∧ next.bound = engine.bound := by
  cases moves_of_step taken with
  | keeps same => exact ⟨same.session ▸ hasSession, by rw [bound, same.session, bound]⟩
  | opens opened => simp [opened.absent] at hasSession
  | accepts current first decided coded isBound samePeer samePhase =>
    refine ⟨by rw [isBound]; rfl, ?_⟩
    rw [handshake_of_accept decided] at decided
    obtain ⟨rfl, own, _⟩ := clientHandler_accept decided
    simp [bound, isBound, current, own]
  | establishes current isAccepted isClient same =>
    exact ⟨same ▸ hasSession, by rw [bound, same, bound]⟩
  | takes current isAccepted authenticated isTaken =>
    exact ⟨by rw [isTaken]; rfl, by simp [bound, isTaken, current]⟩
  | expects current isAccepted isServer =>
    obtain ⟨tokens, isServer⟩ := isServer
    cases isServer

theorem bound_of_client {request : ConnectRequest} (hasSession : engine.session.isSome)
    (reached : Reaches (step (.client request)) (fun _ _ => True) engine later) :
    later.session.isSome ∧ later.bound = engine.bound := by
  induction reached with
  | refl => exact ⟨hasSession, rfl⟩
  | next _ _ taken ih =>
    obtain ⟨stillThere, isBound⟩ := bound_step_of_client ih.1 taken
    exact ⟨stillThere, isBound.trans ih.2⟩

/-- What makes a session accepted: a header block that passes the checks of the role. -/
def AcceptedBy (role : Role) (engine next : H3Engine) : Input → Prop
  | .event streamId (.headers list) key _ _ =>
      next.bound = some streamId ∧
        match role with
        | .server peerTokens =>
            validateServerConnectHeaders list = .ok () ∧ validateServerAuth key list peerTokens =
              .ok next.identity
        | .client _ =>
            engine.bound = some streamId ∧ responseStatus list = some "200" ∧
              next.identity = engine.peerId
  | _ => False

theorem acceptedBy_of_step (taken : step role input engine = some next)
    (before : engine.accepted = false) (after : next.accepted = true) :
    AcceptedBy role engine next input := by
  cases moves_of_step taken with
  | keeps same =>
    rw [accepted, same.session, ← accepted, before] at after
    cases after
  | opens opened => simp [accepted, opened.created, opened.fresh.1] at after
  | accepts current first decided coded isBound samePeer samePhase =>
    rw [handshake_of_accept decided] at decided
    cases role with
    | server tokens =>
      obtain ⟨rfl, valid, id, rfl, authenticated⟩ := serverHandler_accept decided
      exact ⟨by simp [bound, isBound], valid, by simpa [identity, isBound] using authenticated⟩
    | client request =>
      obtain ⟨rfl, own, status, rfl⟩ := clientHandler_accept decided
      exact ⟨by simp [bound, isBound], by simp [bound, current, own],
        status, by simp [identity, isBound, samePeer]⟩
  | establishes current isAccepted => simp [accepted, current, isAccepted] at before
  | takes current isAccepted => simp [accepted, current, isAccepted] at before
  | expects current isAccepted => simp [accepted, current, isAccepted] at before

theorem session_of_event {streamId : UInt64} {event : H3Event} {key : HmacKey}
    {sendError : Option String} {flushed : Bool}
    (taken : step role (.event streamId event key sendError flushed) engine = some next) :
    ∃ session, engine.session = some session ∧
      next = engine.onEvent role session streamId event key sendError flushed := by
  unfold step at taken
  cases hasSession : engine.session with
  | none => simp [hasSession] at taken
  | some session =>
    cases isPolling : engine.polling with
    | false => simp [isPolling] at taken
    | true =>
      refine ⟨session, rfl, ?_⟩
      simp only [hasSession, isPolling] at taken
      split at taken <;> cases taken
      rfl

theorem fatal_event {streamId : UInt64} {event : H3Event} {key : HmacKey}
    {sendError : Option String} {flushed : Bool}
    (taken : step role (.event streamId event key sendError flushed) engine = some next)
    (fatal : ∀ session, engine.session = some session → session.Fatal streamId event) :
    ∃ result, next.phase = .exited result ∧ result ≠ .run none := by
  obtain ⟨session, current, rfl⟩ := session_of_event taken
  obtain ⟨reason, failed⟩ :=
    @H3Session.pollH3Event_fatal (handler role engine.phase session key sendError) _ _ _
      (fatal session current)
  unfold onEvent
  rw [failed]
  obtain ⟨result, exits, isError⟩ :=
    failTurn_exits role { engine with outputs := engine.outputs ++ [] } (.closed reason) flushed
  exact ⟨result, congrArg H3Engine.phase exits, isError⟩

def Ends : H3Event → Prop
  | .finished | .reset _ => True
  | .headers _ | .data | .priorityUpdate | .goAway => False

theorem harmless_event {streamId : UInt64} {event : H3Event} {key : HmacKey}
    {sendError : Option String} {flushed : Bool}
    (taken : step role (.event streamId event key sendError flushed) engine = some next)
    (ends : Ends event) (other : engine.bound ≠ some streamId) : next = engine := by
  obtain ⟨session, current, rfl⟩ := session_of_event taken
  have notBound : session.connectStreamId ≠ some streamId := by simpa [bound, current] using other
  cases event with
  | finished => simp [onEvent, H3Session.pollH3Event, notBound, ← current]
  | reset code => simp [onEvent, H3Session.pollH3Event, notBound, ← current]
  | headers list => cases ends
  | data => cases ends
  | priorityUpdate => cases ends
  | goAway => cases ends

/-- In every state of every run of either role: nothing panics; only a header block that
passes the role's checks makes the session accepted, and from then on its stream, codec and
peer stay the same; only an accepted session is ready; the end of its stream and a GOAWAY
end the engine, and the end of another stream does nothing. -/
theorem connect_ip_acceptance {peerId : String}
    (reached : Reaches (step role) (fun _ _ => True) (new peerId) engine) :
    engine.phase ≠ .panicked ∧
    (∀ input next, step role input engine = some next → engine.accepted = false →
      next.accepted = true →
      AcceptedBy role engine next input) ∧
    (∀ request, role = .client request → engine.session.isSome → ∀ later,
      Reaches (step role) (fun _ _ => True) engine later → later.bound = engine.bound) ∧
    (engine.accepted = true →
      (∃ streamId codec, engine.bound = some streamId ∧ engine.codec = some codec ∧
        ConnectIpDatagramCodec.new streamId = some codec ∧ codec.expectedQsi.toNat =
          streamId.toNat / 4) ∧
      ∀ later, Reaches (step role) (fun _ _ => True) engine later → Settled engine later) ∧
    (engine.phase = .forwarding → engine.accepted = true) ∧
    (∀ session dgramEnabledByPeer, engine.session = some session →
      session.progress dgramEnabledByPeer = .ready → engine.accepted = true) ∧
    (∀ streamId event key sendError flushed next,
      step role (.event streamId event key sendError flushed) engine = some next →
      (event = .goAway ∨ Ends event ∧ engine.bound = some streamId →
        ∃ result, next.phase = .exited result ∧ result ≠ .run none) ∧
      (Ends event → engine.bound ≠ some streamId → next = engine)) := by
  have sound := sound_of_reaches reached
  refine ⟨sound.alive, fun input next => acceptedBy_of_step, ?_, ?_, sound.forwarding, ?_, ?_⟩
  · rintro request rfl hasSession later further
    exact (bound_of_client hasSession further).2
  · intro isAccepted
    obtain ⟨session, current, sessionAccepted⟩ := accepted_iff.mp isAccepted
    obtain ⟨streamId, isBound, coded⟩ := sound.coded session current sessionAccepted
    refine ⟨⟨streamId, session.datagramCodec, ?_, ?_, coded,
      (ConnectIpDatagramCodec.for_of_new coded).expected⟩, ?_⟩
    · rw [bound, current, Option.bind_some, isBound]
    · rw [codec, current, Option.map_some]
    · intro later further
      exact (settled_of_reaches sound isAccepted further).1
  · intro session dgramEnabledByPeer current isReady
    refine accepted_iff.mpr ⟨session, current, ?_⟩
    exact H3Session.accepted_of_ready isReady
  · intro streamId event key sendError flushed next taken
    refine ⟨fun cause => fatal_event taken fun session current => ?_, harmless_event taken⟩
    rcases cause with rfl | ⟨ends, isBound⟩
    · trivial
    · rw [bound, current, Option.bind_some] at isBound
      cases event with
      | finished => exact isBound
      | reset code => exact isBound
      | headers list => cases ends
      | data => cases ends
      | priorityUpdate => cases ends
      | goAway => cases ends

end Invariant

/-- A request without a token is refused; the one on the next stream is accepted. -/
def relayInputs : List Input :=
  [.receive ⟨true, none, true, .ok 0, true, false⟩,
    .event 0 (.headers [⟨asBytes ":method", asBytes "GET"⟩]) (fun _ => 0) none true,
    .event 4 (.headers (connectHeaders "node.example" "/" (bearerAuthHeader "secret-token")))
      (fun _ => 0) none true,
    .done true true false]

theorem connect_ip_acceptance_relay :
    ∃ engine : H3Engine, engine.phase = .forwarding ∧ engine.peerId = "relay" ∧
    engine.bound = some 4 ∧ ∃ codec, engine.codec = some codec ∧ codec.expectedQsi.toNat = 1 := by
  have ran : (run (@step plainHmac (.server [("relay", "secret-token")])) relayInputs
      (new "192.0.2.1:443")).any
      (fun engine => decide (engine.phase = .forwarding ∧ engine.peerId = "relay" ∧
        engine.bound = some 4)) = true := by
    decide +kernel
  obtain ⟨engine, executed, found⟩ := (Option.any_eq_true ..).mp ran
  obtain ⟨forwards, peer, isBound⟩ := of_decide_eq_true found
  have reached : Reaches (@step plainHmac (.server [("relay", "secret-token")])) (fun _ _ => True)
      (new "192.0.2.1:443") engine := reaches_of_run (fun _ _ _ => trivial) executed
  obtain ⟨_, _, _, whenAccepted, whenForwarding, _⟩ :=
    @connect_ip_acceptance plainHmac _ _ _ reached
  obtain ⟨⟨streamId, codec, stream, coded, _, quarter⟩, _⟩ := whenAccepted (whenForwarding forwards)
  rw [isBound, Option.some.injEq] at stream
  refine ⟨engine, forwards, peer, isBound, codec, coded, ?_⟩
  rw [quarter, ← stream]
  rfl

end H3Engine
end H3llo.H3
