import H3llo.Basis.HashMap
import H3llo.Basis.Runs
import H3llo.Metrics
import H3llo.Net.Address

/-! Routing of received QUIC packets to connections.

The packets of a batch came from one address in one read. The dispatcher parses the first
one only and routes the whole batch by its destination connection id. A connection is
registered with the id that its client chose and with a new one of its own.
-/

set_option autoImplicit false

namespace H3llo.H3
open H3llo.Net H3llo.Runs

abbrev ConnectionId := List UInt8

inductive PacketType where
  | initial | retry | handshake | zeroRtt | versionNegotiation | short
  deriving DecidableEq, Repr

structure PacketHeader where
  dcid : ConnectionId
  ty : PacketType
  version : UInt32
  scid : ConnectionId
  deriving DecidableEq, Repr

structure Quic where
  fromSlice : Packet → Option PacketHeader
  versionIsSupported : UInt32 → Bool
  negotiateVersion : ConnectionId → ConnectionId → Option Packet

structure Handover where
  connection : Nat
  remote : SocketAddr
  packets : List Packet
  deriving DecidableEq

/-- Connections are numbered in the order of their creation. `closed` are those whose
channel has lost its receiver. -/
structure H3Dispatcher where
  cidTable : HashMap ConnectionId Nat
  connections : Nat
  closed : Finset Nat
  handed : List Handover
  sent : List (SocketAddr × List Packet)

/-- What is outside of the dispatcher when a batch arrives: the new id, whether the library
accepts, and whether the UDP TX channel takes what is sent. -/
structure Surroundings where
  scid : ConnectionId
  accepts : Bool
  sends : Bool

inductive Dispatch where
  | batch (remote : SocketAddr) (packets : List Packet) (around : Surroundings)
  | cleanup
  | exit (connection : Nat)

namespace H3Dispatcher

def new : H3Dispatcher := ⟨∅, 0, ∅, [], []⟩

def hand (disp : H3Dispatcher) (connection : Nat) (remote : SocketAddr)
    (packets : List Packet) : H3Dispatcher :=
  { disp with handed := disp.handed ++ [⟨connection, remote, packets⟩] }

section Steps

variable (quic : Quic)

def parse (packets : List Packet) : Option PacketHeader := packets.head?.bind quic.fromSlice

def acceptAndSpawn (disp : H3Dispatcher) (remote : SocketAddr) (packets : List Packet)
    (header : PacketHeader) (around : Surroundings) : H3Dispatcher :=
  if header.ty ≠ .initial then disp
  else if ¬ quic.versionIsSupported header.version then
    match quic.negotiateVersion header.scid header.dcid with
    | some packet =>
        if around.sends then { disp with sent := disp.sent ++ [(remote, [packet])] } else disp
    | none => disp
  else if ¬ around.accepts then disp
  else
    let connection := disp.connections
    let disp := disp.hand connection remote packets
    { disp with
      cidTable := (disp.cidTable.insert header.dcid connection).insert around.scid connection
      connections := connection + 1
      -- An engine that cannot send its handshake is dropped, after its ids were registered.
      closed := if around.sends then disp.closed else insert connection disp.closed }

def handleUdpBatch (disp : H3Dispatcher) (remote : SocketAddr) (packets : List Packet)
    (around : Surroundings) : H3Dispatcher :=
  match parse quic packets with
  | none => disp
  | some header =>
      match disp.cidTable.lookup header.dcid with
      | some connection =>
          if connection ∈ disp.closed then disp else disp.hand connection remote packets
      | none => disp.acceptAndSpawn quic remote packets header around

def step (input : Dispatch) (disp : H3Dispatcher) : Option H3Dispatcher :=
  match input with
  | .batch remote packets around => some (disp.handleUdpBatch quic remote packets around)
  | .cleanup =>
      some { disp with
        cidTable := disp.cidTable.retain fun _ connection => connection ∉ disp.closed }
  | .exit connection =>
      if connection < disp.connections then
        some { disp with closed := insert connection disp.closed }
      else none

end Steps

/-! ## What a step can do -/

def Registered (disp : H3Dispatcher) (cid : ConnectionId) (connection : Nat) : Prop :=
  disp.cidTable.lookup cid = some connection

def Fresh (disp : H3Dispatcher) : Dispatch → Prop
  | .batch _ _ around => around.scid ∉ disp.cidTable
  | .cleanup | .exit _ => True

/-- Everything that a step can do to the table, the connections and what they are handed. -/
inductive Moves (quic : Quic) (disp : H3Dispatcher) : Dispatch → H3Dispatcher → Prop where
  | idle {input : Dispatch} {next : H3Dispatcher} (table : next.cidTable = disp.cidTable)
      (connections : next.connections = disp.connections) (handed : next.handed = disp.handed) :
      Moves quic disp input next
  | cleans {next : H3Dispatcher}
      (table : next.cidTable = disp.cidTable.retain fun _ connection => connection ∉ disp.closed)
      (connections : next.connections = disp.connections) (handed : next.handed = disp.handed) :
      Moves quic disp .cleanup next
  | routes {remote : SocketAddr} {packets : List Packet} {around : Surroundings}
      {next : H3Dispatcher} {header : PacketHeader} {connection : Nat}
      (parsed : parse quic packets = some header)
      (registered : disp.Registered header.dcid connection)
      (table : next.cidTable = disp.cidTable) (connections : next.connections = disp.connections)
      (handed : next.handed = disp.handed ++ [⟨connection, remote, packets⟩]) :
      Moves quic disp (.batch remote packets around) next
  | spawns {remote : SocketAddr} {packets : List Packet} {around : Surroundings}
      {next : H3Dispatcher} {header : PacketHeader} (parsed : parse quic packets = some header)
      (unknown : header.dcid ∉ disp.cidTable) (initial : header.ty = .initial)
      (supported : quic.versionIsSupported header.version = true)
      (table : next.cidTable =
        (disp.cidTable.insert header.dcid disp.connections).insert around.scid disp.connections)
      (connections : next.connections = disp.connections + 1)
      (handed : next.handed = disp.handed ++ [⟨disp.connections, remote, packets⟩]) :
      Moves quic disp (.batch remote packets around) next

variable {quic : Quic} {disp next : H3Dispatcher} {input : Dispatch}

theorem moves_of_handleUdpBatch (disp : H3Dispatcher) (remote : SocketAddr) (packets : List Packet)
    (around : Surroundings) :
    Moves quic disp (.batch remote packets around)
      (disp.handleUdpBatch quic remote packets around) := by
  unfold handleUdpBatch
  cases parsed : parse quic packets with
  | none => exact .idle rfl rfl rfl
  | some header =>
    cases found : disp.cidTable.lookup header.dcid with
    | some connection =>
      by_cases gone : connection ∈ disp.closed
      · simp only [found, if_pos gone]
        exact .idle rfl rfl rfl
      · simp only [found, if_neg gone]
        exact .routes parsed found rfl rfl rfl
    | none =>
      simp only [found]
      unfold acceptAndSpawn
      by_cases initial : header.ty = .initial
      · by_cases supported : quic.versionIsSupported header.version = true
        · by_cases accepts : around.accepts = true
          · simp only [initial, supported, accepts, ne_eq, not_true_eq_false, if_false]
            exact .spawns parsed (Finmap.lookup_eq_none.mp found) initial supported rfl rfl rfl
          · simp only [initial, supported, accepts, ne_eq, not_true_eq_false, if_false]
            exact .idle rfl rfl rfl
        · rw [if_neg (not_not.mpr initial), if_pos supported]
          cases quic.negotiateVersion header.scid header.dcid with
          | none => exact .idle rfl rfl rfl
          | some packet => cases around.sends <;> exact .idle rfl rfl rfl
      · simp only [ne_eq, initial, not_false_eq_true, if_true]
        exact .idle rfl rfl rfl

theorem moves_of_step (taken : step quic input disp = some next) : Moves quic disp input next := by
  cases input with
  | batch remote packets around =>
    cases taken
    exact moves_of_handleUdpBatch disp remote packets around
  | cleanup =>
    cases taken
    exact .cleans rfl rfl rfl
  | exit connection =>
    simp only [step] at taken
    split at taken <;> cases taken
    exact .idle rfl rfl rfl

/-! ## Runs -/

def Bounded (disp : H3Dispatcher) : Prop :=
  ∀ cid connection, disp.Registered cid connection → connection < disp.connections

def Created (disp next : H3Dispatcher) (connection : Nat) : Prop :=
  connection = disp.connections ∧ next.connections = disp.connections + 1

/-- The step has handed this packet to the connection. -/
def Hands (disp next : H3Dispatcher) (connection : Nat) (packet : Packet) : Prop :=
  ∃ handover ∈ next.handed.drop disp.handed.length, handover.connection = connection ∧
    packet ∈ handover.packets

theorem not_hands {connection : Nat} {packet : Packet} (same : next.handed = disp.handed) :
    ¬ Hands disp next connection packet := by
  rintro ⟨handover, listed, _⟩
  rw [same, List.drop_length] at listed
  cases listed

theorem hands_iff {handover : Handover} {connection : Nat} {packet : Packet}
    (handed : next.handed = disp.handed ++ [handover]) :
    Hands disp next connection packet ↔ handover.connection = connection ∧
    packet ∈ handover.packets := by
  simp [Hands, handed, List.drop_left']

theorem registered_spawn {header : PacketHeader} {scid cid : ConnectionId} {connection : Nat}
    (table : next.cidTable = (disp.cidTable.insert header.dcid disp.connections).insert scid
      disp.connections) :
    next.Registered cid connection ↔
      (cid = scid ∨ cid = header.dcid) ∧ connection = disp.connections ∨
        cid ≠ scid ∧ cid ≠ header.dcid ∧ disp.Registered cid connection := by
  unfold Registered
  rw [table]
  by_cases own : cid = scid
  · subst own
    simp [eq_comm]
  · rw [Finmap.lookup_insert_of_ne _ own]
    by_cases chosen : cid = header.dcid
    · subst chosen
      simp [own, eq_comm]
    · simp [Finmap.lookup_insert_of_ne _ chosen, own, chosen]

/-- A step registers only unknown ids, for the connection that it creates. -/
theorem registered_after (fresh : disp.Fresh input) (taken : step quic input disp = some next)
    {cid : ConnectionId} {connection : Nat} (registered : next.Registered cid connection) :
    disp.Registered cid connection ∨ cid ∉ disp.cidTable ∧ Created disp next connection := by
  cases moves_of_step taken with
  | idle table => exact .inl (by rwa [Registered, table] at registered)
  | routes _ _ table => exact .inl (by rwa [Registered, table] at registered)
  | cleans table =>
    rw [Registered, table, HashMap.lookup_retain, Option.filter_eq_some_iff] at registered
    exact .inl registered.1
  | spawns parsed unknown initial supported table connections =>
    rcases (registered_spawn table).mp registered with ⟨rfl | rfl, rfl⟩ | ⟨_, _, known⟩
    · exact .inr ⟨fresh, rfl, connections⟩
    · exact .inr ⟨unknown, rfl, connections⟩
    · exact .inl known

/-- A registration is removed only by a cleanup, when its connection is gone. -/
theorem registered_before (fresh : disp.Fresh input) (taken : step quic input disp = some next)
    {cid : ConnectionId} {connection : Nat} (registered : disp.Registered cid connection) :
    next.Registered cid connection ∨ input = .cleanup ∧ connection ∈ disp.closed := by
  cases moves_of_step taken with
  | idle table => exact .inl (by rwa [Registered, table])
  | routes _ _ table => exact .inl (by rwa [Registered, table])
  | cleans table =>
    by_cases gone : connection ∈ disp.closed
    · exact .inr ⟨rfl, gone⟩
    · left
      rw [Registered, table, HashMap.lookup_retain, Option.filter_eq_some_iff]
      exact ⟨registered, by simpa using gone⟩
  | spawns parsed unknown initial supported table =>
    have known : cid ∈ disp.cidTable := Finmap.mem_of_lookup_eq_some registered
    refine .inl ((registered_spawn table).mpr (.inr ⟨?_, ?_, registered⟩))
    · rintro rfl
      exact fresh known
    · rintro rfl
      exact unknown known

theorem bounded_step (bounded : Bounded disp) (fresh : disp.Fresh input)
    (taken : step quic input disp = some next) : Bounded next := by
  intro cid connection registered
  have grows : disp.connections ≤ next.connections := by
    cases moves_of_step taken with
    | idle _ same => exact same.ge
    | cleans _ same => exact same.ge
    | routes _ _ _ same => exact same.ge
    | spawns _ _ _ _ _ more => omega
  rcases registered_after fresh taken registered with before | ⟨_, rfl, more⟩
  · exact Nat.lt_of_lt_of_le (bounded cid connection before) grows
  · omega

theorem bounded_of_reaches (reached : Reaches (step quic) Fresh new disp) : Bounded disp := by
  induction reached with
  | refl =>
    intro cid connection registered
    simp [Registered, new] at registered
  | next _ fresh taken ih => exact bounded_step ih fresh taken

theorem hands_first (taken : step quic input disp = some next) {connection : Nat} {packet : Packet}
    (hands : Hands disp next connection packet) :
    ∃ remote packets around header, input = .batch remote packets around ∧ packet ∈ packets ∧
      parse quic packets = some header ∧
      (disp.Registered header.dcid connection ∨
        Created disp next connection ∧ next.Registered header.dcid connection) := by
  cases moves_of_step taken with
  | idle _ _ same => exact absurd hands (not_hands same)
  | cleans _ _ same => exact absurd hands (not_hands same)
  | routes parsed registered _ _ handed =>
    obtain ⟨rfl, member⟩ := (hands_iff handed).mp hands
    exact ⟨_, _, _, _, rfl, member, parsed, .inl registered⟩
  | spawns parsed unknown initial supported table connections handed =>
    obtain ⟨rfl, member⟩ := (hands_iff handed).mp hands
    refine ⟨_, _, _, _, rfl, member, parsed, .inr ⟨⟨rfl, connections⟩, ?_⟩⟩
    exact (registered_spawn table).mpr (.inl ⟨.inr rfl, rfl⟩)

theorem created_initial (taken : step quic input disp = some next) {connection : Nat}
    (created : Created disp next connection) :
    ∃ remote packets around header, input = .batch remote packets around ∧
      parse quic packets = some header ∧
      header.dcid ∉ disp.cidTable ∧ header.ty = .initial ∧
      quic.versionIsSupported header.version = true := by
  obtain ⟨_, more⟩ := created
  cases moves_of_step taken with
  | idle _ same => omega
  | cleans _ same => omega
  | routes _ _ _ same => omega
  | spawns parsed unknown initial supported =>
    exact ⟨_, _, _, _, rfl, parsed, unknown, initial, supported⟩

/-- In every state of every run with new connection ids, and for whatever comes next: a
packet goes to the connection for which the destination id of its batch's first packet is
registered, or to the one that its batch creates with this id. For a batch with a single
destination id this is the id of every packet. No id belongs to two connections, and a
connection is created only for an Initial packet of a supported version with an unknown id. -/
theorem batch_routing (reached : Reaches (step quic) Fresh new disp) (fresh : disp.Fresh input)
    (taken : step quic input disp = some next) :
    (∀ connection packet, Hands disp next connection packet →
      ∃ remote packets around header, input = .batch remote packets around ∧ packet ∈ packets ∧
        parse quic packets = some header ∧
        (disp.Registered header.dcid connection ∨
          Created disp next connection ∧ next.Registered header.dcid connection)) ∧
    (∀ remote packets around, input = .batch remote packets around →
      (∀ packet ∈ packets, (quic.fromSlice packet).map PacketHeader.dcid =
        (parse quic packets).map PacketHeader.dcid) →
      ∀ connection packet, Hands disp next connection packet →
        ∃ own, quic.fromSlice packet = some own ∧
          (disp.Registered own.dcid connection ∨ Created disp next connection ∧
            next.Registered own.dcid connection)) ∧
    (∀ cid first second, disp.Registered cid first → disp.Registered cid second → first = second) ∧
    (∀ cid connection, disp.Registered cid connection →
      next.Registered cid connection ∨ input = .cleanup ∧ connection ∈ disp.closed) ∧
    (∀ cid connection, next.Registered cid connection →
      disp.Registered cid connection ∨ cid ∉ disp.cidTable ∧ Created disp next connection) ∧
    (∀ connection, Created disp next connection →
      (∀ cid, ¬ disp.Registered cid connection) ∧
      ∃ remote packets around header, input = .batch remote packets around ∧
        parse quic packets = some header ∧
        header.dcid ∉ disp.cidTable ∧ header.ty = .initial ∧
        quic.versionIsSupported header.version = true) := by
  refine ⟨fun connection packet => hands_first taken, ?_, ?_,
    fun cid connection => registered_before fresh taken,
    fun cid connection => registered_after fresh taken, fun connection created =>
      ⟨?_, created_initial taken created⟩⟩
  · rintro remote packets around rfl single connection packet hands
    obtain ⟨_, _, _, header, same, member, parsed, owner⟩ := hands_first taken hands
    cases same
    -- All packets have the id by which the batch was routed.
    have shared := single packet member
    rw [parsed, Option.map_some, Option.map_eq_some_iff] at shared
    obtain ⟨own, isOwn, sameId⟩ := shared
    exact ⟨own, isOwn, by rwa [sameId]⟩
  · intro cid first second isFirst isSecond
    rw [Registered, isFirst, Option.some.injEq] at isSecond
    exact isSecond
  · intro cid registered
    -- A new connection has the next number, which no id belongs to yet.
    exact absurd (bounded_of_reaches reached cid connection registered)
      (by rw [created.1]; exact Nat.lt_irrefl _)

/-! ## Two connections of one remote address -/

/-- Headers of three fields: the type as 0 for Initial, the version, and the destination id. -/
def plainQuic : Quic where
  fromSlice packet :=
    match packet with
    | ty :: version :: dcid =>
        some ⟨dcid, if ty = 0 then .initial else .short, version.toUInt32, []⟩
    | _ => none
  versionIsSupported version := version == 1
  negotiateVersion _ _ := none

def client : SocketAddr := ⟨.v4 0xc0000201#32, 443⟩

def twoConnections : List Dispatch :=
  [.batch client [[0, 1, 10]] ⟨[20], true, true⟩, .batch client [[0, 1, 11]] ⟨[21], true, true⟩]

def mixedBatch : Dispatch := .batch client [[1, 0, 10], [1, 0, 11]] ⟨[22], true, true⟩

def lastPacket : Dispatch := .batch client [[1, 0, 11]] ⟨[22], true, true⟩

instance (disp : H3Dispatcher) (cid : ConnectionId) (connection : Nat) :
    Decidable (disp.Registered cid connection) :=
  inferInstanceAs (Decidable (_ = _))

instance (disp : H3Dispatcher) (input : Dispatch) : Decidable (disp.Fresh input) :=
  match input with
  | .batch _ _ around => inferInstanceAs (Decidable (around.scid ∉ disp.cidTable))
  | .cleanup => isTrue trivial
  | .exit _ => isTrue trivial

instance (disp next : H3Dispatcher) (connection : Nat) : Decidable (Created disp next connection) :=
  inferInstanceAs (Decidable (_ ∧ _))

instance (disp next : H3Dispatcher) (connection : Nat) (packet : Packet) :
    Decidable (Hands disp next connection packet) :=
  inferInstanceAs (Decidable (∃ handover ∈ next.handed.drop disp.handed.length, _ ∧ _))

theorem batch_routing_single :
    ∃ disp next : H3Dispatcher, step plainQuic lastPacket disp = some next ∧
    Hands disp next 1 [1, 0, 11] ∧ disp.Registered [11] 1 := by
  have ran : (run (guarded (step plainQuic) Fresh) twoConnections new).any (fun disp =>
      decide (disp.Fresh lastPacket) && (step plainQuic lastPacket disp).any fun next =>
        decide (Hands disp next 1 [1, 0, 11] ∧ ¬ Created disp next 1)) = true := by
    decide +kernel
  obtain ⟨disp, executed, further⟩ := (Option.any_eq_true ..).mp ran
  rw [Bool.and_eq_true, decide_eq_true_eq, Option.any_eq_true] at further
  obtain ⟨fresh, next, taken, found⟩ := further
  obtain ⟨hands, notCreated⟩ := of_decide_eq_true found
  have routing := batch_routing (reaches_of_guarded_run executed) fresh taken
  obtain ⟨_, _, _, header, same, _, parsed, owner⟩ := routing.1 1 [1, 0, 11] hands
  cases same
  cases parsed
  rcases owner with registered | created
  · exact ⟨disp, next, taken, hands, registered⟩
  · exact absurd created.1 notCreated

theorem batch_misrouted : ∃ disp next : H3Dispatcher, Reaches (step plainQuic) Fresh new disp ∧
    disp.Fresh mixedBatch ∧ step plainQuic mixedBatch disp = some next ∧
    Hands disp next 0 [1, 0, 11] ∧
    plainQuic.fromSlice [1, 0, 11] = some ⟨[11], .short, 0, []⟩ ∧
    disp.Registered [11] 1 ∧ ¬ disp.Registered [11] 0 ∧ ¬ Created disp next 0 := by
  have ran : (run (guarded (step plainQuic) Fresh) twoConnections new).any (fun disp =>
      decide (disp.Fresh mixedBatch) && (step plainQuic mixedBatch disp).any fun next =>
        decide (Hands disp next 0 [1, 0, 11] ∧ plainQuic.fromSlice [1, 0, 11] =
          some ⟨[11], .short, 0, []⟩ ∧
          disp.Registered [11] 1 ∧ ¬ disp.Registered [11] 0 ∧ ¬ Created disp next 0)) = true := by
    decide +kernel
  obtain ⟨disp, executed, further⟩ := (Option.any_eq_true ..).mp ran
  rw [Bool.and_eq_true, decide_eq_true_eq, Option.any_eq_true] at further
  obtain ⟨fresh, next, taken, found⟩ := further
  exact ⟨disp, next, reaches_of_guarded_run executed, fresh, taken, of_decide_eq_true found⟩

end H3Dispatcher
end H3llo.H3
