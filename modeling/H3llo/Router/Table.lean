import H3llo.Basis.Channel
import H3llo.Basis.HashMap
import H3llo.Net.PrefixTrie
import H3llo.Config.Peers

/-! The routing table: construction from peers and local addresses, and lookup.

A construction either fails on a prefix with two owners or represents the set of
its routes; everything a lookup returns is read from that set.
-/

set_option autoImplicit false

namespace H3llo.Router
open H3llo.Net H3llo.Config

def localPeerId : String := "__local__"

structure RouteEntry where
  peerId : String
  tx : Sender
  deriving DecidableEq, Repr

structure RouteMatch where
  net : IpNet
  peerId : String
  tx : Sender
  deriving DecidableEq, Repr

inductive RoutingError where
  | conflictingPrefix (net : IpNet) (existingPeerId newPeerId : String)
  deriving DecidableEq, Repr

def RouteMatch.entry (found : RouteMatch) : RouteEntry := ⟨found.peerId, found.tx⟩

def RouteMatch.canonical (found : RouteMatch) : RouteMatch := { found with net := found.net.trunc }

structure RoutingTable (Trie : Type → Type) where
  trie : Trie RouteEntry

namespace RoutingTable

variable {Trie : Type → Type} [PrefixTrie Trie]

def new : RoutingTable Trie := ⟨PrefixTrie.empty⟩

def insert (table : RoutingTable Trie) (net : IpNet) (entry : RouteEntry) :
    Except RoutingError (RoutingTable Trie) :=
  match PrefixTrie.exactMatch table.trie net with
  | some existing =>
      -- The first entry of an owner stays.
      if existing.peerId = entry.peerId then .ok table
      else .error (.conflictingPrefix net existing.peerId entry.peerId)
  | none => .ok ⟨PrefixTrie.insert table.trie net entry⟩

def insertAllowed (entry : RouteEntry) (table : RoutingTable Trie) :
    List IpNet → Except RoutingError (RoutingTable Trie)
  | [] => .ok table
  | net :: rest => do
      let table ← table.insert net entry
      insertAllowed entry table rest

/-- The loop over peers; one without a TX channel is skipped. -/
def insertPeers (peerTxs : HashMap String Sender) (table : RoutingTable Trie) :
    List Peer → Except RoutingError (RoutingTable Trie)
  | [] => .ok table
  | peer :: rest =>
      match peerTxs.lookup peer.id with
      | none => insertPeers peerTxs table rest
      | some tx => do
          let table ← insertAllowed ⟨peer.id, tx⟩ table peer.tun.allowedIps
          insertPeers peerTxs table rest

def insertLocal (inputTx : Sender) (table : RoutingTable Trie) : List IpNet → RoutingTable Trie
  | [] => table
  | addr :: rest =>
      match table.insert (.host addr.addr) ⟨localPeerId, inputTx⟩ with
      | .ok table => insertLocal inputTx table rest
      | .error _ => insertLocal inputTx table rest

def make (peers : List Peer) (peerTxs : HashMap String Sender) (localTun : LocalTun)
    (inputTx : Sender) :
    Except RoutingError (RoutingTable Trie) := do
  let table ← insertPeers peerTxs new peers
  return insertLocal inputTx table localTun.addrs

def lookup (table : RoutingTable Trie) (addr : IpAddr) : Option RouteMatch :=
  (PrefixTrie.longestMatch table.trie (.host addr)).map fun (net, entry) =>
    { net, peerId := entry.peerId, tx := entry.tx }

/-! ## Claims on prefixes -/

def owner (table : RoutingTable Trie) (net : IpNet) : Option RouteEntry :=
  PrefixTrie.exactMatch table.trie net

theorem owner_same (table : RoutingTable Trie) {net other : IpNet} (same : net.Same other) :
    table.owner net = table.owner other := PrefixTrie.exactMatch_same table.trie same

theorem owner_new (net : IpNet) : (new : RoutingTable Trie).owner net = none :=
  PrefixTrie.exactMatch_empty net

theorem insert_cases (table : RoutingTable Trie) (net : IpNet) (entry : RouteEntry) :
    (table.owner net = none ∧ ∃ next, table.insert net entry = .ok next ∧
      ∀ other, next.owner other = if net.Same other then some entry else table.owner other) ∨
    (∃ existing, table.owner net = some existing ∧ existing.peerId = entry.peerId ∧
      table.insert net entry = .ok table) ∨
    ∃ existing, table.owner net = some existing ∧ existing.peerId ≠ entry.peerId ∧
      table.insert net entry = .error (.conflictingPrefix net existing.peerId entry.peerId) := by
  unfold insert
  cases found : PrefixTrie.exactMatch table.trie net with
  | none =>
    exact .inl ⟨found, _, rfl, fun other => PrefixTrie.exactMatch_insert table.trie net other entry⟩
  | some existing =>
    by_cases same : existing.peerId = entry.peerId
    · exact .inr (.inl ⟨existing, found, same, by simp [same]⟩)
    · exact .inr (.inr ⟨existing, found, same, by simp [same]⟩)

end RoutingTable

abbrev Claim := IpNet × RouteEntry

def Consistent (claims : List Claim) : Prop :=
  ∀ first ∈ claims, ∀ second ∈ claims, first.1.Same second.1 → first.2.peerId = second.2.peerId

def Keyed (claims : List Claim) : Prop :=
  ∀ first ∈ claims, ∀ second ∈ claims, first.2.peerId = second.2.peerId → first.2 = second.2

namespace RoutingTable

variable {Trie : Type → Type} [PrefixTrie Trie]

def insertClaims (table : RoutingTable Trie) (claims : List Claim) :
    Except RoutingError (RoutingTable Trie) :=
  claims.foldlM (fun table claim => table.insert claim.1 claim.2) table

/-- The table holds exactly the claimed networks, each for its claimant. -/
def Represents (table : RoutingTable Trie) (claims : List Claim) : Prop :=
  ∀ net entry, table.owner net = some entry ↔ ∃ claim ∈ claims, claim.1.Same net ∧ claim.2 = entry

theorem represents_new : (new : RoutingTable Trie).Represents [] := by
  intro net entry
  simp [owner_new]

theorem Represents.consistent {table : RoutingTable Trie} {claims : List Claim}
    (represents : table.Represents claims) : Consistent claims := by
  intro first firstMem second secondMem same
  have left := (represents second.1 first.2).mpr ⟨first, firstMem, same, rfl⟩
  have right := (represents second.1 second.2).mpr ⟨second, secondMem, .refl _, rfl⟩
  rw [left, Option.some.injEq] at right
  rw [right]

theorem Represents.append_free {table next : RoutingTable Trie} {done : List Claim}
    {claim : Claim} (represents : table.Represents done) (free : table.owner claim.1 = none)
    (added : ∀ other,
      next.owner other = if claim.1.Same other then some claim.2 else table.owner other) :
    next.Represents (done ++ [claim]) := by
  intro net entry
  rw [added]
  by_cases same : claim.1.Same net
  · -- The network was free, so no earlier claim denotes it.
    rw [table.owner_same same] at free
    have absent : ¬ ∃ earlier ∈ done, earlier.1.Same net ∧ earlier.2 = entry := by
      rw [← represents net entry, free]
      simp
    rw [if_pos same]
    simp only [Option.some.injEq, List.mem_append, List.mem_singleton, or_and_right, exists_or,
      exists_eq_left, absent, false_or, same, true_and]
  · rw [if_neg same, represents net entry]
    simp only [List.mem_append, List.mem_singleton, or_and_right, exists_or, exists_eq_left, same,
      false_and, or_false]

theorem Represents.append_kept {table : RoutingTable Trie} {done : List Claim} {claim : Claim}
    (represents : table.Represents done) (kept : table.owner claim.1 = some claim.2) :
    table.Represents (done ++ [claim]) := by
  intro net entry
  rw [represents net entry]
  simp only [List.mem_append, List.mem_singleton, or_and_right, exists_or, exists_eq_left]
  constructor
  · exact .inl
  · rintro (earlier | ⟨same, rfl⟩)
    · exact earlier
    · exact (represents net claim.2).mp (by rw [← table.owner_same same, kept])

theorem Represents.insertClaims {table : RoutingTable Trie} {done claims : List Claim}
    (represents : table.Represents done) (keyed : Keyed (done ++ claims)) :
    (∃ next, table.insertClaims claims = .ok next ∧ next.Represents (done ++ claims)) ∨
      (∃ error, table.insertClaims claims = .error error) ∧ ¬ Consistent (done ++ claims) := by
  -- on the claims to come; those made so far grow at their end
  induction claims generalizing table done with
  | nil => exact .inl ⟨table, rfl, by simpa using represents⟩
  | cons claim rest ih =>
    have regroup : done ++ claim :: rest = (done ++ [claim]) ++ rest := by simp
    have step {next : RoutingTable Trie} (inserted : table.insert claim.1 claim.2 = .ok next) :
        table.insertClaims (claim :: rest) = next.insertClaims rest := by
      simp only [RoutingTable.insertClaims, List.foldlM_cons, inserted]
      rfl
    rcases table.insert_cases claim.1 claim.2 with ⟨free, next, inserted, added⟩ | ⟨existing, found,
      same, inserted⟩ |
      ⟨existing, found, different, refused⟩
    · rw [step inserted, regroup]
      exact ih (represents.append_free free added) (by rwa [← regroup])
    -- a repeated claim: its owner has the same entry in all of them
    · obtain ⟨earlier, member, _, rfl⟩ := (represents claim.1 existing).mp found
      have equal : earlier.2 = claim.2 := keyed earlier (by simp [member]) claim (by simp) same
      rw [step inserted, regroup]
      exact ih (represents.append_kept (by rw [found, equal])) (by rwa [← regroup])
    -- a second owner
    · obtain ⟨earlier, member, sameNet, rfl⟩ := (represents claim.1 existing).mp found
      refine .inr ⟨⟨.conflictingPrefix claim.1 earlier.2.peerId claim.2.peerId, ?_⟩,
        fun consistent => ?_⟩
      · simp only [RoutingTable.insertClaims, List.foldlM_cons, refused]
        rfl
      · exact different (consistent earlier (by simp [member]) claim (by simp) sameNet)

end RoutingTable

/-! ## Claims of the peers -/

def peerClaims (peerTxs : HashMap String Sender) (peers : List Peer) : List Claim :=
  peers.flatMap fun peer =>
    match peerTxs.lookup peer.id with
    | none => []
    | some tx => peer.tun.allowedIps.map fun net => (net, ⟨peer.id, tx⟩)

theorem mem_peerClaims {peerTxs : HashMap String Sender} {peers : List Peer} {net : IpNet}
    {entry : RouteEntry} :
    (net, entry) ∈ peerClaims peerTxs peers ↔
      ∃ peer ∈ peers, net ∈ peer.tun.allowedIps ∧ entry.peerId = peer.id ∧
        peerTxs.lookup peer.id = some entry.tx := by
  simp only [peerClaims, List.mem_flatMap]
  refine exists_congr fun peer => and_congr_right fun _ => ?_
  obtain ⟨peerId, tx⟩ := entry
  cases found : peerTxs.lookup peer.id with
  | none => simp
  | some own =>
    simp only [List.mem_map, Prod.mk.injEq, RouteEntry.mk.injEq, Option.some.injEq]
    constructor
    · rintro ⟨other, member, rfl, rfl, rfl⟩
      exact ⟨member, rfl, rfl⟩
    · rintro ⟨member, rfl, rfl⟩
      exact ⟨net, member, rfl, rfl, rfl⟩

theorem keyed_peerClaims (peerTxs : HashMap String Sender) (peers : List Peer) :
    Keyed (peerClaims peerTxs peers) := by
  intro ⟨firstNet, firstId, firstTx⟩ firstMem ⟨secondNet, secondId, secondTx⟩ secondMem same
  obtain ⟨first, _, _, firstIs, firstFound⟩ := mem_peerClaims.mp firstMem
  obtain ⟨second, _, _, secondIs, secondFound⟩ := mem_peerClaims.mp secondMem
  simp only at same firstIs secondIs firstFound secondFound
  subst same
  rw [← firstIs] at firstFound
  rw [← secondIs, firstFound, Option.some.injEq] at secondFound
  rw [secondFound]

namespace RoutingTable

variable {Trie : Type → Type} [PrefixTrie Trie]

theorem insertAllowed_eq (entry : RouteEntry) (table : RoutingTable Trie) (nets : List IpNet) :
    insertAllowed entry table nets = table.insertClaims (nets.map fun net => (net, entry)) := by
  induction nets generalizing table with
  | nil => rfl
  | cons net rest ih => simp only [insertAllowed, ih]; rfl

theorem insertPeers_eq (peerTxs : HashMap String Sender) (table : RoutingTable Trie)
    (peers : List Peer) :
    insertPeers peerTxs table peers = table.insertClaims (peerClaims peerTxs peers) := by
  induction peers generalizing table with
  | nil => rfl
  | cons peer rest ih =>
    simp only [insertPeers, peerClaims, List.flatMap_cons]
    cases found : peerTxs.lookup peer.id with
    | none => exact ih table
    | some tx => simp only [insertAllowed_eq, ih, insertClaims, List.foldlM_append]; rfl

/-! ## The routes of a table -/

theorem owner_insertLocal (inputTx : Sender) (table : RoutingTable Trie) (addrs : List IpNet)
    (net : IpNet) :
    (insertLocal inputTx table addrs).owner net =
      (table.owner net).or
        (if ∃ addr ∈ addrs, (IpNet.host addr.addr).Same net then some ⟨localPeerId, inputTx⟩
          else none) := by
  induction addrs generalizing table with
  | nil => simp [insertLocal]
  | cons addr rest ih =>
    -- Whoever owns the network already keeps it, whether the insertion succeeds or not.
    have occupied {existing : RouteEntry} (found : table.owner (.host addr.addr) = some existing) :
        (table.owner net).or
            (if ∃ other ∈ rest, (IpNet.host other.addr).Same net then some ⟨localPeerId, inputTx⟩
              else none) =
          (table.owner net).or
            (if ∃ other ∈ addr :: rest, (IpNet.host other.addr).Same net then
              some ⟨localPeerId, inputTx⟩
              else none) := by
      by_cases same : (IpNet.host addr.addr).Same net
      · rw [table.owner_same same] at found
        simp [found]
      · simp [same]
    rcases table.insert_cases (.host addr.addr) ⟨localPeerId, inputTx⟩ with
      ⟨free, next, inserted, added⟩ |
      ⟨existing, found, _, kept⟩ | ⟨existing, found, _, refused⟩
    · simp only [insertLocal, inserted, ih, added]
      by_cases same : (IpNet.host addr.addr).Same net
      · rw [table.owner_same same] at free
        simp [same, free]
      · simp [same]
    · simp only [insertLocal, kept, ih, occupied found]
    · simp only [insertLocal, refused, ih, occupied found]

end RoutingTable

structure RoutingInput where
  peers : List Peer
  peerTxs : HashMap String Sender
  localTun : LocalTun
  inputTx : Sender

namespace RoutingInput

def claims (input : RoutingInput) : List Claim := peerClaims input.peerTxs input.peers

def make (Trie : Type → Type) [PrefixTrie Trie] (input : RoutingInput) :
    Except RoutingError (RoutingTable Trie) :=
  RoutingTable.make input.peers input.peerTxs input.localTun input.inputTx

/-- A prefix of a connected peer for that peer's TX, or the host route of a local address
that no connected peer claims exactly. -/
def IsRoute (input : RoutingInput) (net : IpNet) (entry : RouteEntry) : Prop :=
  (∃ peer ∈ input.peers, net ∈ peer.tun.allowedIps ∧ entry.peerId = peer.id ∧
    input.peerTxs.lookup peer.id = some entry.tx) ∨
  (∃ addr ∈ input.localTun.addrs, net = .host addr.addr) ∧ entry = ⟨localPeerId, input.inputTx⟩ ∧
    ∀ peer ∈ input.peers, (input.peerTxs.lookup peer.id).isSome → ∀ other ∈ peer.tun.allowedIps,
      ¬ other.Same net

/-- A longest one among the routes that contain the address. -/
def Longest (input : RoutingInput) (addr : IpAddr) (net : IpNet) (entry : RouteEntry) : Prop :=
  input.IsRoute net entry ∧ net.Contains addr ∧
    ∀ other entry, input.IsRoute other entry → other.Contains addr → other.prefixLen ≤ net.prefixLen

theorem isRoute_iff {input : RoutingInput} {net : IpNet} {entry : RouteEntry} :
    input.IsRoute net entry ↔ (net, entry) ∈ input.claims ∨
      (∃ addr ∈ input.localTun.addrs, net = .host addr.addr) ∧
        entry = ⟨localPeerId, input.inputTx⟩ ∧
        ∀ claim ∈ input.claims, ¬ claim.1.Same net := by
  have unclaimed : (∀ claim ∈ input.claims, ¬ claim.1.Same net) ↔
      ∀ peer ∈ input.peers, (input.peerTxs.lookup peer.id).isSome →
        ∀ other ∈ peer.tun.allowedIps, ¬ other.Same net := by
    constructor
    · intro free peer member connected other claimed
      obtain ⟨tx, found⟩ := Option.isSome_iff_exists.mp connected
      exact free (other, ⟨peer.id, tx⟩) (mem_peerClaims.mpr ⟨peer, member, claimed, rfl, found⟩)
    · intro free ⟨other, entry⟩ claimed
      obtain ⟨peer, member, listed, _, found⟩ := mem_peerClaims.mp claimed
      exact free peer member (by simp [found]) other listed
  rw [IsRoute, claims, mem_peerClaims, ← claims, unclaimed]

section Make

variable {Trie : Type → Type} [PrefixTrie Trie]

variable (Trie) in
theorem make_cases (input : RoutingInput) :
    (∃ table : RoutingTable Trie, table.Represents input.claims ∧
      input.make Trie = .ok (table.insertLocal input.inputTx input.localTun.addrs)) ∨
    (∃ error, input.make Trie = .error error) ∧ ¬ Consistent input.claims := by
  unfold make RoutingTable.make
  rw [RoutingTable.insertPeers_eq]
  have empty : (RoutingTable.new : RoutingTable Trie).Represents [] := RoutingTable.represents_new
  have keyed : Keyed ([] ++ input.claims) := keyed_peerClaims input.peerTxs input.peers
  rcases empty.insertClaims keyed with ⟨table, inserted, represents⟩ | ⟨⟨error, refused⟩, conflict⟩
  · exact .inl ⟨table, represents, by rw [← claims, inserted]; rfl⟩
  · exact .inr ⟨⟨error, by rw [← claims, refused]; rfl⟩, conflict⟩

theorem make_isOk_iff (input : RoutingInput) :
    (input.make Trie).isOk ↔ Consistent input.claims := by
  rcases make_cases Trie input with ⟨table, represents, made⟩ | ⟨⟨error, failed⟩, conflict⟩
  · simp [made, Except.isOk, Except.toBool, represents.consistent]
  · simp [failed, Except.isOk, Except.toBool, conflict]

theorem owner_make {input : RoutingInput} {table : RoutingTable Trie}
    (made : input.make Trie = .ok table) (net : IpNet) (entry : RouteEntry) :
    table.owner net = some entry ↔ ∃ route, input.IsRoute route entry ∧ route.Same net := by
  rcases make_cases Trie input with ⟨base, represents, same⟩ | ⟨⟨error, failed⟩, _⟩
  swap
  · rw [failed] at made
    cases made
  rw [same, Except.ok.injEq] at made
  subst made
  rw [RoutingTable.owner_insertLocal]
  simp only [isRoute_iff]
  cases found : base.owner net with
  | some existing =>
    obtain ⟨claim, member, sameNet, rfl⟩ := (represents net existing).mp found
    simp only [Option.some_or, Option.some.injEq]
    constructor
    · rintro rfl
      exact ⟨claim.1, .inl member, sameNet⟩
    · rintro ⟨route, claimed | ⟨_, _, free⟩, routeSame⟩
      · have stored := (represents net entry).mpr ⟨(route, entry), claimed, routeSame, rfl⟩
        rw [found, Option.some.injEq] at stored
        exact stored
      · exact absurd (sameNet.trans routeSame.symm) (free claim member)
  | none =>
    -- nobody claims the network, so it can only be a local host
    have free : ∀ claim ∈ input.claims, ¬ claim.1.Same net := fun claim member sameNet => by
      have stored := (represents net claim.2).mpr ⟨claim, member, sameNet, rfl⟩
      rw [found] at stored
      cases stored
    simp only [Option.none_or, Option.ite_none_right_eq_some, Option.some.injEq]
    constructor
    · rintro ⟨⟨addr, listed, sameNet⟩, rfl⟩
      exact ⟨_, .inr ⟨⟨addr, listed, rfl⟩, rfl, fun claim member other =>
        free claim member (other.trans sameNet)⟩,
        sameNet⟩
    · rintro ⟨route, claimed | ⟨⟨addr, listed, rfl⟩, rfl, _⟩, routeSame⟩
      · exact absurd routeSame (free (route, entry) claimed)
      · exact ⟨⟨addr, listed, routeSame⟩, rfl⟩

theorem lookup_longest {input : RoutingInput} {table : RoutingTable Trie}
    (made : input.make Trie = .ok table) {addr : IpAddr} {found : RouteMatch}
    (matched : table.lookup addr = some found) :
    ∃ net, found.net.Same net ∧ input.Longest addr net found.entry := by
  obtain ⟨⟨key, entry⟩, trieMatched, rfl⟩ := Option.map_eq_some_iff.mp matched
  obtain ⟨covers, stored, longest⟩ := PrefixTrie.longestMatch_some table.trie trieMatched
  obtain ⟨net, route, same⟩ := (owner_make made key entry).mp stored
  refine ⟨net, same.symm, route, same.symm.contains (IpNet.covers_host.mp covers),
    fun other otherEntry isRoute inside => ?_⟩
  have present : (table.owner other).isSome := by
    simp [(owner_make made other otherEntry).mpr ⟨other, isRoute, .refl _⟩]
  rw [same.1]
  exact longest other (IpNet.covers_host.mpr inside) present

theorem lookup_of_longest {input : RoutingInput} {table : RoutingTable Trie}
    (made : input.make Trie = .ok table) {addr : IpAddr} {net : IpNet} {entry : RouteEntry}
    (longest : input.Longest addr net entry) :
    ∃ found, table.lookup addr = some found ∧ found.net.Same net ∧ found.entry = entry := by
  obtain ⟨route, inside, largest⟩ := longest
  have stored := (owner_make made net entry).mpr ⟨net, route, .refl _⟩
  obtain ⟨key, matched, same⟩ := PrefixTrie.longestMatch_of_longest table.trie
    (IpNet.covers_host.mpr inside) stored
    (fun other covers present => by
      obtain ⟨otherEntry, found⟩ := Option.isSome_iff_exists.mp present
      obtain ⟨otherNet, isRoute, otherSame⟩ := (owner_make made other otherEntry).mp found
      rw [← otherSame.1]
      exact largest otherNet otherEntry isRoute
        (otherSame.symm.contains (IpNet.covers_host.mp covers)))
  exact ⟨_, by rw [RoutingTable.lookup, matched]; rfl, same, rfl⟩

theorem lookup_eq_none_iff {input : RoutingInput} {table : RoutingTable Trie}
    (made : input.make Trie = .ok table) {addr : IpAddr} :
    table.lookup addr = none ↔ ∀ net entry, input.IsRoute net entry → ¬ net.Contains addr := by
  constructor
  · intro unmatched net entry route inside
    have absent := PrefixTrie.longestMatch_none table.trie (Option.map_eq_none_iff.mp unmatched) net
      (IpNet.covers_host.mpr inside)
    have stored := (owner_make made net entry).mpr ⟨net, route, .refl _⟩
    rw [RoutingTable.owner, absent] at stored
    cases stored
  · intro outside
    cases matched : table.lookup addr with
    | none => rfl
    | some found =>
      obtain ⟨net, _, route, inside, _⟩ := lookup_longest made matched
      exact absurd inside (outside net _ route)

end Make

/-! ## Order of the inputs -/

/-- The same claims, local hosts and delivery channel, in whatever order. -/
structure Alike (first second : RoutingInput) : Prop where
  claims : ∀ claim, claim ∈ first.claims ↔ claim ∈ second.claims
  hosts : ∀ host, (∃ addr ∈ first.localTun.addrs, host = IpNet.host addr.addr) ↔
    ∃ addr ∈ second.localTun.addrs, host = IpNet.host addr.addr
  inputTx : first.inputTx = second.inputTx

namespace Alike

variable {Trie : Type → Type} [PrefixTrie Trie] {first second : RoutingInput}
  (alike : Alike first second)
include alike

theorem isRoute (net : IpNet) (entry : RouteEntry) :
    first.IsRoute net entry ↔ second.IsRoute net entry := by
  simp only [isRoute_iff, alike.claims, alike.hosts, alike.inputTx]

theorem isOk : (first.make Trie).isOk = (second.make Trie).isOk := by
  rw [Bool.eq_iff_iff, make_isOk_iff, make_isOk_iff]
  simp only [Consistent, alike.claims]

theorem lookup {left right : RoutingTable Trie} (leftMade : first.make Trie = .ok left)
    (rightMade : second.make Trie = .ok right) (addr : IpAddr) :
    (left.lookup addr).map RouteMatch.canonical = (right.lookup addr).map RouteMatch.canonical := by
  have agree (net : IpNet) : left.owner net = right.owner net := by
    ext entry
    rw [owner_make leftMade, owner_make rightMade]
    simp only [alike.isRoute]
  have tries := congrArg (Option.map fun entry : IpNet × RouteEntry =>
    RouteMatch.mk entry.1 entry.2.peerId entry.2.tx)
    (PrefixTrie.longestMatch_congr left.trie right.trie agree (.host addr))
  simp only [RoutingTable.lookup, Option.map_map] at tries ⊢
  exact tries

end Alike

/-- The same peers in another order, each with its prefixes in another order. -/
def PeersReordered (first second : List Peer) : Prop :=
  ∃ middle, first.Perm middle ∧
    List.Forall₂ (fun left right => left.id = right.id ∧
      left.tun.allowedIps.Perm right.tun.allowedIps) middle second

theorem peerClaims_perm {peerTxs : HashMap String Sender} {first second : List Peer}
    (perm : first.Perm second) (claim : Claim) :
    claim ∈ peerClaims peerTxs first ↔ claim ∈ peerClaims peerTxs second :=
  (perm.flatMap_right _).mem_iff

theorem mem_peerClaims_of_reordered {peerTxs : HashMap String Sender} {first second : List Peer}
    (reordered : PeersReordered first second) (claim : Claim) :
    claim ∈ peerClaims peerTxs first ↔ claim ∈ peerClaims peerTxs second := by
  obtain ⟨middle, perm, pairs⟩ := reordered
  rw [peerClaims_perm perm]
  clear perm
  induction pairs with
  | nil => rfl
  | @cons left right _ _ pair _ ih =>
    have nets : ∀ net, net ∈ left.tun.allowedIps ↔ net ∈ right.tun.allowedIps :=
      fun net => pair.2.mem_iff
    obtain ⟨net, entry⟩ := claim
    simp only [mem_peerClaims, List.mem_cons, exists_eq_or_imp, nets] at ih ⊢
    rw [ih, pair.1]

theorem alike_of_reordered {first second : RoutingInput}
    (peers : PeersReordered first.peers second.peers) (txs : first.peerTxs = second.peerTxs)
    (addrs : first.localTun.addrs.Perm second.localTun.addrs)
    (inputTx : first.inputTx = second.inputTx) : Alike first second where
  claims claim := by
    rw [RoutingInput.claims, RoutingInput.claims, txs]
    exact mem_peerClaims_of_reordered peers claim
  hosts host := by simp only [addrs.mem_iff]
  inputTx := inputTx

/-- Lookup is a longest match over the routes, and neither success nor the lookup function
depends on the order of peers, prefixes or local addresses. -/
theorem make_lookup_spec {Trie : Type → Type} [PrefixTrie Trie] (input : RoutingInput) :
    (∀ table : RoutingTable Trie, input.make Trie = .ok table → ∀ addr,
      (∀ found, table.lookup addr = some found →
        ∃ net, found.net.Same net ∧ input.Longest addr net found.entry) ∧
      (∀ net entry, input.Longest addr net entry →
        ∃ found, table.lookup addr = some found ∧ found.net.Same net ∧ found.entry = entry) ∧
      (table.lookup addr = none ↔ ∀ net entry, input.IsRoute net entry → ¬ net.Contains addr)) ∧
    ∀ peers addrs, PeersReordered input.peers peers → input.localTun.addrs.Perm addrs →
      let other : RoutingInput := { input with peers, localTun := ⟨addrs⟩ }
      (input.make Trie).isOk = (other.make Trie).isOk ∧
        ∀ table otherTable : RoutingTable Trie, input.make Trie = .ok table →
          other.make Trie = .ok otherTable →
          ∀ addr, (table.lookup addr).map RouteMatch.canonical =
            (otherTable.lookup addr).map RouteMatch.canonical := by
  refine ⟨fun table made addr => ?_, fun peers addrs reordered perm => ?_⟩
  · exact ⟨fun _ => lookup_longest made, fun _ _ => lookup_of_longest made, lookup_eq_none_iff made⟩
  · have alike : Alike input { input with peers, localTun := ⟨addrs⟩ } :=
      alike_of_reordered reordered rfl perm rfl
    exact ⟨alike.isOk, fun _ _ made otherMade => alike.lookup made otherMade⟩

def samplePeer (id : String) (nets : List IpNet) : Peer :=
  { id, transport := .bare { endpoint := ⟨id ++ ".example", 6635⟩, bindif := none }, tun := ⟨nets⟩ }

def sampleInput : RoutingInput where
  peers := [samplePeer "wide" [⟨.v4 0x0a000000#32, 8, by decide⟩],
    samplePeer "narrow" [⟨.v4 0x0a010000#32, 16, by decide⟩]]
  peerTxs := (Finmap.insert "wide" ⟨1⟩ ∅).insert "narrow" ⟨2⟩
  localTun := ⟨[⟨.v4 0x0a010001#32, 24, by decide⟩]⟩
  inputTx := ⟨0⟩

theorem make_lookup_sample :
    ∃ table : RoutingTable AssocTrie, sampleInput.make AssocTrie = .ok table ∧
    (∃ found net, table.lookup (.v4 0x0a010203#32) = some found ∧ found.net.Same net ∧
      sampleInput.Longest (.v4 0x0a010203#32) net ⟨"narrow", ⟨2⟩⟩) := by
  have made : ∃ table : RoutingTable AssocTrie, sampleInput.make AssocTrie = .ok table := ⟨_, rfl⟩
  obtain ⟨table, made⟩ := made
  have matched : (sampleInput.make AssocTrie).toOption.bind
      (fun table => table.lookup (.v4 0x0a010203#32)) =
      some ⟨⟨.v4 0x0a010000#32, 16, by decide⟩, "narrow", ⟨2⟩⟩ := by decide +kernel
  rw [made] at matched
  obtain ⟨net, same, longest⟩ := ((make_lookup_spec sampleInput).1 table made _).1 _ matched
  exact ⟨table, made, _, net, matched, same, longest⟩

end RoutingInput
end H3llo.Router
