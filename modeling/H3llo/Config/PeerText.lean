import H3llo.Config.EndpointText

/-! Peers as they are written.

A peer is written with one field for each transport, of which exactly one is set, and with
its endpoint as a URI. Prefixes and the text around the fields are left to libraries.
-/

set_option autoImplicit false

namespace H3llo.Config

structure RawPeer where
  id : String
  h3 : Option PeerH3
  bare : Option PeerBare
  tun : PeerTun
  deriving DecidableEq, Repr

def Peer.tryFrom (raw : RawPeer) : Except String Peer :=
  match raw.h3, raw.bare with
  | some h3, none => .ok ⟨raw.id, .h3 h3, raw.tun⟩
  | none, some bare => .ok ⟨raw.id, .bare bare, raw.tun⟩
  | some _, some _ | none, none =>
      .error ("peer '" ++ raw.id ++ "' must configure exactly one of h3 or bare")

def RawPeer.ofPeer (peer : Peer) : RawPeer :=
  match peer.transport with
  | .h3 options => ⟨peer.id, some options, none, peer.tun⟩
  | .bare options => ⟨peer.id, none, some options, peer.tun⟩

structure H3Fields where
  endpoint : Option String
  token : String
  bindif : Option String
  sni : Option String
  deriving DecidableEq, Repr

structure BareFields where
  endpoint : String
  bindif : Option String
  deriving DecidableEq, Repr

structure PeerDocument where
  id : String
  h3 : Option H3Fields
  bare : Option BareFields
  tun : PeerTun
  deriving DecidableEq, Repr

/-! ## Writing -/

def PeerH3.write (options : PeerH3) : H3Fields :=
  ⟨options.endpoint.map H3Endpoint.serialize, options.token, options.bindif, options.sni⟩

def PeerBare.write (options : PeerBare) : BareFields := ⟨options.endpoint.serialize, options.bindif⟩

def Peer.write (peer : Peer) : PeerDocument :=
  let raw := RawPeer.ofPeer peer
  ⟨raw.id, raw.h3.map PeerH3.write, raw.bare.map PeerBare.write, raw.tun⟩

/-! ## Reading -/

def readField {Text Value : Type} (read : Text → Except String Value) :
    Option Text → Except String (Option Value)
  | none => .ok none
  | some text => (read text).map some

section Reading

variable (parseUrl : UrlParser)

def H3Fields.read (fields : H3Fields) : Except String PeerH3 :=
  (readField (parseH3Uri parseUrl) fields.endpoint).map fun endpoint =>
    ⟨endpoint, fields.token, fields.bindif, fields.sni⟩

def BareFields.read (fields : BareFields) : Except String PeerBare :=
  (parseUdpUri parseUrl fields.endpoint).map fun endpoint => ⟨endpoint, fields.bindif⟩

def PeerDocument.read (document : PeerDocument) : Except String Peer := do
  let h3 ← readField (H3Fields.read parseUrl) document.h3
  let bare ← readField (BareFields.read parseUrl) document.bare
  Peer.tryFrom ⟨document.id, h3, bare, document.tun⟩

def Readable (peer : Peer) : Prop := ∃ document : PeerDocument, document.read parseUrl = .ok peer

end Reading

theorem map_eq_ok {Value Result : Type} {value : Except String Value} {convert : Value → Result}
    {result : Result} (mapped : value.map convert = .ok result) :
    ∃ inner, value = .ok inner ∧ convert inner = result := by
  cases value with
  | error text => cases mapped
  | ok inner => exact ⟨inner, rfl, Except.ok.inj mapped⟩

theorem readField_eq_some {Text Value : Type} {read : Text → Except String Value}
    {field : Option Text} {value : Value} (found : readField read field = .ok (some value)) :
    ∃ text, field = some text ∧ read text = .ok value := by
  cases field with
  | none => cases found
  | some text =>
    obtain ⟨inner, parsed, same⟩ := map_eq_ok found
    cases same
    exact ⟨text, rfl, parsed⟩

theorem read_eq_ok {parseUrl : UrlParser} {document : PeerDocument} {peer : Peer}
    (accepted : document.read parseUrl = .ok peer) :
    ∃ h3 bare, readField (H3Fields.read parseUrl) document.h3 = .ok h3 ∧
      readField (BareFields.read parseUrl) document.bare = .ok bare ∧
      Peer.tryFrom ⟨document.id, h3, bare, document.tun⟩ = .ok peer := by
  unfold PeerDocument.read at accepted
  cases h3 : readField (H3Fields.read parseUrl) document.h3 with
  | error text =>
    rw [h3] at accepted
    cases accepted
  | ok options =>
    cases bare : readField (BareFields.read parseUrl) document.bare with
    | error text =>
      rw [h3, bare] at accepted
      cases accepted
    | ok other =>
      rw [h3, bare] at accepted
      exact ⟨options, other, rfl, rfl, accepted⟩

theorem ofPeer_of_tryFrom {raw : RawPeer} {peer : Peer} (accepted : Peer.tryFrom raw = .ok peer) :
    RawPeer.ofPeer peer = raw := by
  obtain ⟨id, h3, bare, tun⟩ := raw
  cases h3 with
  | none =>
    cases bare with
    | none => cases accepted
    | some options =>
      cases accepted
      rfl
  | some options =>
    cases bare with
    | none =>
      cases accepted
      rfl
    | some other => cases accepted

section RoundTrip

variable {parseUrl : UrlParser} (standard : FollowsStandard parseUrl)
include standard

theorem h3_read_write {fields : H3Fields} {options : PeerH3}
    (accepted : fields.read parseUrl = .ok options) :
    options.write.read parseUrl = .ok options := by
  obtain ⟨endpoint, found, rfl⟩ := map_eq_ok accepted
  cases endpoint with
  | none => rfl
  | some endpoint =>
    obtain ⟨raw, _, parsed⟩ := readField_eq_some found
    have again := (keeps_h3 standard parsed).serialised
    simp [PeerH3.write, H3Fields.read, readField, again, Except.map]

theorem bare_read_write {fields : BareFields} {options : PeerBare}
    (accepted : fields.read parseUrl = .ok options) :
    options.write.read parseUrl = .ok options := by
  obtain ⟨endpoint, parsed, rfl⟩ := map_eq_ok accepted
  have again := (keeps_udp standard parsed).serialised
  simp [PeerBare.write, BareFields.read, again, Except.map]

theorem Readable.read_write {peer : Peer} (readable : Readable parseUrl peer) :
    peer.write.read parseUrl = .ok peer := by
  obtain ⟨document, accepted⟩ := readable
  obtain ⟨h3, bare, readH3, readBare, chosen⟩ := read_eq_ok accepted
  have written := ofPeer_of_tryFrom chosen
  have againH3 : readField (H3Fields.read parseUrl) (h3.map PeerH3.write) = .ok h3 := by
    cases h3 with
    | none => rfl
    | some options =>
      obtain ⟨fields, _, parsed⟩ := readField_eq_some readH3
      simp [readField, h3_read_write standard parsed, Except.map]
  have againBare : readField (BareFields.read parseUrl) (bare.map PeerBare.write) = .ok bare := by
    cases bare with
    | none => rfl
    | some options =>
      obtain ⟨fields, _, parsed⟩ := readField_eq_some readBare
      simp [readField, bare_read_write standard parsed, Except.map]
  unfold Peer.write PeerDocument.read
  rw [written]
  simp only [againH3, againBare]
  exact chosen

end RoundTrip

end H3llo.Config
