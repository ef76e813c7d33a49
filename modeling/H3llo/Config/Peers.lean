import H3llo.Net.AddressText
import Mathlib.Data.Finset.Insert

/-! Peer configurations and the check of a peer list.

`validatePeers` runs at load and, on the merged peer set, at every update. It
reports every violation it meets, in the order of the list.
-/

set_option autoImplicit false

namespace H3llo.Config
open H3llo.Net

structure UdpEndpoint where
  host : String
  port : UInt16
  deriving DecidableEq, Repr

structure H3Endpoint where
  host : String
  port : UInt16
  path : String
  deriving DecidableEq, Repr

/-- HTTP/3 options; a peer without an endpoint only listens. -/
structure PeerH3 where
  endpoint : Option H3Endpoint
  token : String
  bindif : Option String
  sni : Option String
  deriving DecidableEq, Repr

structure PeerBare where
  endpoint : UdpEndpoint
  bindif : Option String
  deriving DecidableEq, Repr

inductive PeerTransport where
  | h3 (options : PeerH3)
  | bare (options : PeerBare)
  deriving DecidableEq, Repr

structure PeerTun where
  allowedIps : List IpNet
  deriving DecidableEq, Repr

structure Peer where
  id : String
  transport : PeerTransport
  tun : PeerTun
  deriving DecidableEq, Repr

structure LocalTun where
  addrs : List IpNet
  deriving DecidableEq, Repr

inductive ValidationError where
  | fieldMustBePositive (field : String)
  | fieldConflict (description : String)
  | fieldEmpty (context field : String)
  | fieldHasWhitespace (context field : String)
  | duplicateValue (context field value : String)
  | peerTokenTooShort (peerId : String)
  | invalidCcAlgorithm (algorithm : String)
  deriving DecidableEq, Repr

def ValidationError.toText : ValidationError → String
  | .fieldMustBePositive field => field ++ " must be greater than 0"
  | .fieldConflict description => "field conflict: " ++ description
  | .fieldEmpty context field => context ++ ": " ++ field ++ " must not be empty"
  | .fieldHasWhitespace context field =>
      context ++ ": " ++ field ++ " must not have leading or trailing whitespace"
  | .duplicateValue context field value =>
      context ++ ": duplicate " ++ field ++ " '" ++ value ++ "'"
  | .peerTokenTooShort peerId =>
      "peer '" ++ peerId ++ "' requires h3.token of at least 12 characters when h3 is configured"
  | .invalidCcAlgorithm algorithm =>
      "tuning.h3_cc_algorithm '" ++ algorithm ++
        "' is not recognized (accepted: reno, cubic, bbr, bbr2, none)"

def validationText (errors : List ValidationError) : String :=
  "validation failed: " ++ "; ".intercalate (errors.map ValidationError.toText)

/-- The Unicode `White_Space` property. -/
def isWhitespace (char : Char) : Bool :=
  let code := char.toNat
  (0x09 ≤ code && code ≤ 0x0D) || code == 0x20 || code == 0x85 || code == 0xA0 || code == 0x1680 ||
    (0x2000 ≤ code && code ≤ 0x200A) || code == 0x2028 || code == 0x2029 || code == 0x202F ||
    code == 0x205F || code == 0x3000

def trim (text : String) : String :=
  String.ofList ((text.toList.dropWhile isWhitespace).reverse.dropWhile isWhitespace).reverse

/-! ## The checks

Each returns the errors that it pushes.
-/

def checkNotEmpty (isEmpty : Bool) (context field : String) : List ValidationError :=
  if isEmpty then [.fieldEmpty context field] else []

def checkUnique {T : Type} [DecidableEq T] (toText : T → String) (seen : Finset T) (value : T)
    (context field : String) : List ValidationError × Finset T :=
  -- A value is recorded whether or not it was seen before, so every repetition is reported.
  (if value ∈ seen then [.duplicateValue context field (toText value)] else [], insert value seen)

def checkTrimmed (value context field : String) (checkEmpty : Bool) : List ValidationError :=
  if checkEmpty ∧ trim value = "" then [.fieldEmpty context field]
  else if value ≠ trim value then [.fieldHasWhitespace context field]
  else []

def checkAllowed (context : String) (seen : Finset IpNet) : List IpNet → List ValidationError
  | [] => []
  | net :: rest =>
      let (errors, seen) := checkUnique IpNet.toText seen net context "tun.allowed_ips"
      errors ++ checkAllowed context seen rest

structure SeenPeers where
  peerIds : Finset String
  peerTokens : Finset String

def checkTransport (peerId context : String) (seenTokens : Finset String) :
    PeerTransport → List ValidationError × Finset String
  | .bare _ => ([], seenTokens)
  | .h3 options =>
      -- The length of a token is counted in bytes. Only a long enough one is checked for
      -- whitespace.
      let tokenErrors :=
        if options.token.utf8ByteSize < 12 then [.peerTokenTooShort peerId]
        else checkTrimmed options.token context "h3.token" false
      let (duplicate, seenTokens) := checkUnique id seenTokens options.token context "h3.token"
      let sniErrors := options.sni.elim [] fun sni => checkTrimmed sni context "h3.sni" true
      let bindifErrors := options.bindif.elim [] fun bindif =>
        checkTrimmed bindif context "h3.bindif" false
      (tokenErrors ++ duplicate ++ sniErrors ++ bindifErrors, seenTokens)

def checkPeer (seen : SeenPeers) (peer : Peer) : List ValidationError × SeenPeers :=
  let context := "peer '" ++ peer.id ++ "'"
  let (duplicate, peerIds) := checkUnique id seen.peerIds peer.id context "id"
  let (transportErrors, peerTokens) := checkTransport peer.id context seen.peerTokens peer.transport
  (checkTrimmed peer.id context "id" true ++ duplicate ++ transportErrors ++
      checkNotEmpty peer.tun.allowedIps.isEmpty context "tun.allowed_ips" ++
      checkAllowed context ∅ peer.tun.allowedIps,
    { peerIds, peerTokens })

def checkPeers (seen : SeenPeers) : List Peer → List ValidationError
  | [] => []
  | peer :: rest =>
      let (errors, seen) := checkPeer seen peer
      errors ++ checkPeers seen rest

def validatePeers (peers : List Peer) : Except (List ValidationError) Unit :=
  match checkPeers ⟨∅, ∅⟩ peers with
  | [] => .ok ()
  | errors => .error errors

/-! ## What is accepted -/

def Trimmed (value : String) : Prop := value = trim value ∧ trim value ≠ ""

structure TransportOk (options : PeerH3) : Prop where
  token : 12 ≤ options.token.utf8ByteSize ∧ options.token = trim options.token
  sni : ∀ sni ∈ options.sni, Trimmed sni
  bindif : ∀ bindif ∈ options.bindif, bindif = trim bindif

structure PeerOk (peer : Peer) : Prop where
  id : Trimmed peer.id
  transport : ∀ options, peer.transport = .h3 options → TransportOk options
  allowedIps : peer.tun.allowedIps ≠ []
  distinct : peer.tun.allowedIps.Nodup

def Peer.token? (peer : Peer) : Option String :=
  match peer.transport with
  | .h3 options => some options.token
  | .bare _ => none

theorem checkTrimmed_eq_nil {value context field : String} :
    checkTrimmed value context field true = [] ↔ Trimmed value := by
  unfold checkTrimmed Trimmed
  by_cases empty : trim value = ""
  · simp [empty]
  · by_cases same : value = trim value
    · simp [← same]
    · simp [empty, same]

theorem checkTrimmed_false_eq_nil {value context field : String} :
    checkTrimmed value context field false = [] ↔ value = trim value := by
  simp [checkTrimmed]

theorem checkUnique_eq_nil {T : Type} [DecidableEq T] {toText : T → String} {seen : Finset T}
    {value : T} {context field : String} :
    (checkUnique toText seen value context field).1 = [] ↔ value ∉ seen := by
  simp [checkUnique]

theorem checkAllowed_eq_nil {context : String} {seen : Finset IpNet} {nets : List IpNet} :
    checkAllowed context seen nets = [] ↔ nets.Nodup ∧ ∀ net ∈ nets, net ∉ seen := by
  induction nets generalizing seen with
  | nil => simp [checkAllowed]
  | cons net rest ih =>
    simp only [checkAllowed, List.append_eq_nil_iff, checkUnique_eq_nil, ih, List.nodup_cons]
    simp only [checkUnique, Finset.mem_insert, not_or, List.mem_cons, forall_eq_or_imp]
    constructor
    · intro ⟨fresh, distinct, others⟩
      exact ⟨⟨fun member => (others net member).1 rfl, distinct⟩, fresh,
        fun other member => (others other member).2⟩
    · intro ⟨⟨absent, distinct⟩, fresh, others⟩
      refine ⟨fresh, distinct, fun other member => ⟨fun same => absent ?_, others other member⟩⟩
      rwa [← same]

theorem checkTransport_eq_nil {peerId context : String} {seenTokens : Finset String}
    {transport : PeerTransport} :
    (checkTransport peerId context seenTokens transport).1 = [] ↔
      ∀ options, transport = .h3 options → TransportOk options ∧ options.token ∉ seenTokens := by
  cases transport with
  | bare options => simp [checkTransport]
  | h3 options =>
    simp only [checkTransport, List.append_eq_nil_iff, checkUnique_eq_nil, PeerTransport.h3.injEq,
      forall_eq']
    have token : (if options.token.utf8ByteSize < 12 then [.peerTokenTooShort peerId]
        else checkTrimmed options.token context "h3.token" false) = [] ↔
        12 ≤ options.token.utf8ByteSize ∧ options.token = trim options.token := by
      split
      next short => simp; omega
      next long => rw [checkTrimmed_false_eq_nil]; simp; omega
    have sni : (options.sni.elim [] fun sni => checkTrimmed sni context "h3.sni" true) = [] ↔
        ∀ sni ∈ options.sni, Trimmed sni := by
      cases options.sni <;> simp [checkTrimmed_eq_nil]
    have bindif : (options.bindif.elim [] fun bindif =>
        checkTrimmed bindif context "h3.bindif" false) = [] ↔
        ∀ bindif ∈ options.bindif, bindif = trim bindif := by
      cases options.bindif <;> simp [checkTrimmed_false_eq_nil]
    rw [token, sni, bindif]
    constructor
    · intro ⟨⟨⟨tokenOk, fresh⟩, sniOk⟩, bindifOk⟩
      exact ⟨⟨tokenOk, sniOk, bindifOk⟩, fresh⟩
    · intro ⟨⟨tokenOk, sniOk, bindifOk⟩, fresh⟩
      exact ⟨⟨⟨tokenOk, fresh⟩, sniOk⟩, bindifOk⟩

theorem checkPeer_seen (seen : SeenPeers) (peer : Peer) :
    (checkPeer seen peer).2 =
      ⟨insert peer.id seen.peerIds, peer.token?.elim seen.peerTokens
        (insert · seen.peerTokens)⟩ := by
  unfold checkPeer Peer.token?
  cases peer.transport <;> rfl

theorem checkPeer_eq_nil {seen : SeenPeers} {peer : Peer} :
    (checkPeer seen peer).1 = [] ↔
      PeerOk peer ∧ peer.id ∉ seen.peerIds ∧ ∀ token ∈ peer.token?, token ∉ seen.peerTokens := by
  simp only [checkPeer, List.append_eq_nil_iff, checkTrimmed_eq_nil, checkUnique_eq_nil,
    checkTransport_eq_nil, checkAllowed_eq_nil, checkNotEmpty]
  have tokens : (∀ token ∈ peer.token?, token ∉ seen.peerTokens) ↔
      ∀ options, peer.transport = .h3 options → options.token ∉ seen.peerTokens := by
    unfold Peer.token?
    cases peer.transport <;> simp
  rw [tokens]
  constructor
  · intro ⟨⟨⟨⟨trimmed, fresh⟩, transport⟩, nonempty⟩, distinct, _⟩
    exact ⟨⟨trimmed, fun options same => (transport options same).1, by simpa using nonempty,
      distinct⟩, fresh,
      fun options same => (transport options same).2⟩
  · intro ⟨⟨trimmed, transport, nonempty, distinct⟩, fresh, unused⟩
    exact ⟨⟨⟨⟨trimmed, fresh⟩, fun options same => ⟨transport options same, unused options same⟩⟩,
      by simpa using nonempty⟩, distinct, by simp⟩

/-- Every peer passes on its own; ids and tokens are new, each against those before it. -/
theorem checkPeers_eq_nil {seen : SeenPeers} {peers : List Peer} :
    checkPeers seen peers = [] ↔
      (∀ peer ∈ peers, PeerOk peer) ∧ (peers.map Peer.id).Nodup ∧
        (peers.filterMap Peer.token?).Nodup ∧
        (∀ peer ∈ peers, peer.id ∉ seen.peerIds) ∧
        ∀ token ∈ peers.filterMap Peer.token?, token ∉ seen.peerTokens := by
  induction peers generalizing seen with
  | nil => simp [checkPeers]
  | cons peer rest ih =>
    simp only [checkPeers, List.append_eq_nil_iff, checkPeer_eq_nil, ih, checkPeer_seen,
      List.mem_cons, forall_eq_or_imp, List.map_cons, List.nodup_cons, Finset.mem_insert, not_or,
      List.mem_map, not_exists, not_and]
    -- what the tail is checked against is what was seen before, with the head added
    cases found : peer.token? with
    | none =>
      simp only [List.filterMap_cons_none found, Option.elim_none, Option.not_mem_none,
        false_imp_iff, implies_true]
      grind
    | some token =>
      simp only [List.filterMap_cons_some found, Option.elim_some, Option.mem_some_iff, forall_eq',
        List.nodup_cons, Finset.mem_insert, not_or, List.mem_cons, forall_eq_or_imp]
      grind

/-- A peer list is accepted when each peer is sound and no id or token repeats. Prefixes
are compared within a peer only. -/
theorem validatePeers_ok_iff {peers : List Peer} :
    validatePeers peers = .ok () ↔
      (∀ peer ∈ peers, PeerOk peer) ∧ (peers.map Peer.id).Nodup ∧
        (peers.filterMap Peer.token?).Nodup := by
  have accepted : validatePeers peers = .ok () ↔ checkPeers ⟨∅, ∅⟩ peers = [] := by
    unfold validatePeers
    split <;> simp_all
  rw [accepted, checkPeers_eq_nil]
  simp

theorem validatePeers_ids_nodup {peers : List Peer} (accepted : validatePeers peers = .ok ()) :
    (peers.map Peer.id).Nodup := (validatePeers_ok_iff.mp accepted).2.1

end H3llo.Config
