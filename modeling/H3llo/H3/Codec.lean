import H3llo.Net.Varint
import H3llo.Udp.Receive

/-! Framing of IP packets in QUIC datagrams.

A frame is the quarter stream id of the CONNECT-IP request as a variable-length
integer, the context id and the packet. Frames are made and removed in place, in the
headroom of the packet's buffer.
-/

set_option autoImplicit false

namespace H3llo.H3
open H3llo.Net H3llo.Udp ConsumeBuffer

/-- Buffers that can grow at their front, into the headroom. -/
class PrefixBuffer (Buf : Type) extends ConsumeBuffer Buf where
  addPrefix : Buf → List UInt8 → Bool × Buf
  addPrefix_fits (buf : Buf) (data : List UInt8) :
    data.length ≤ headroom buf →
      ∃ next, addPrefix buf data = (true, next) ∧ visible next = data ++ visible buf ∧
        headroom next + data.length = headroom buf
  addPrefix_full (buf : Buf) (data : List UInt8) : headroom buf < data.length →
    addPrefix buf data = (false, buf)

open PrefixBuffer (addPrefix addPrefix_fits addPrefix_full)

def contextIdIp : UInt8 := 0x00

/-! ## Quarter stream ids -/

/-- `none` where the encoder panics. -/
def encodeQsi (qsi : UInt64) : Option (List UInt8) := Varint.encode qsi.toNat

def decodeQsi (buf : List UInt8) : Option (Nat × Nat) :=
  match buf with
  | [] => none
  | first :: _ =>
      let qsiLen := Varint.parseLen first
      if buf.length < qsiLen then none else (Varint.decode buf).map fun (qsi, _) => (qsi, qsiLen)

theorem decodeQsi_eq (buf : List UInt8) : decodeQsi buf = Varint.decode buf := by
  cases buf with
  | nil => rfl
  | cons first rest =>
    unfold decodeQsi Varint.decode
    simp only
    split <;> rfl

structure ConnectIpDatagramCodec where
  expectedQsi : UInt64
  qsiBytes : List UInt8
  deriving DecidableEq, Repr

namespace ConnectIpDatagramCodec

def new (connectStreamId : UInt64) : Option ConnectIpDatagramCodec :=
  let expectedQsi := connectStreamId / 4
  (encodeQsi expectedQsi).map fun qsiBytes => { expectedQsi, qsiBytes }

section Frames

variable {Buf : Type} [PrefixBuffer Buf]

def prepend (codec : ConnectIpDatagramCodec) (packet : Buf) : Bool × Buf :=
  match addPrefix packet [contextIdIp] with
  | (true, packet) => addPrefix packet codec.qsiBytes
  | (false, packet) => (false, packet)

/-- `none` where taking bytes off the front panics. -/
def strip (codec : ConnectIpDatagramCodec) (packet : Buf) : Option (Bool × Buf) :=
  match decodeQsi (visible packet) with
  | none => some (false, packet)
  | some (qsi, qsiLen) =>
      if qsi ≠ codec.expectedQsi.toNat ∨ qsiLen ≠ codec.qsiBytes.length then some (false, packet)
      else
        let prefixLen := qsiLen + 1
        if (visible packet).length < prefixLen ∨ (visible packet)[qsiLen]? ≠ some contextIdIp then
          some (false, packet)
        else if (visible packet).length = prefixLen then some (false, packet)
        else (popFront packet prefixLen).map fun packet => (true, packet)

end Frames

/-! ## Creation -/

structure For (codec : ConnectIpDatagramCodec) (streamId : UInt64) : Prop where
  expected : codec.expectedQsi.toNat = streamId.toNat / 4
  encoded : Varint.encode (streamId.toNat / 4) = some codec.qsiBytes

theorem new_total (streamId : UInt64) :
    ∃ codec, new streamId = some codec ∧ codec.For streamId := by
  have quarter : (streamId / 4).toNat = streamId.toNat / 4 := by simp [UInt64.toNat_div]
  have small : streamId.toNat / 4 < 4611686018427387904 := by
    have := streamId.toNat_lt
    omega
  obtain ⟨bytes, encoded⟩ := Varint.encode_isSome small
  exact ⟨⟨streamId / 4, bytes⟩, by simp [new, encodeQsi, quarter, encoded], quarter, encoded⟩

theorem for_of_new {streamId : UInt64} {codec : ConnectIpDatagramCodec}
    (made : new streamId = some codec) : codec.For streamId := by
  obtain ⟨other, same, isFor⟩ := new_total streamId
  rw [made, Option.some.injEq] at same
  rwa [same]

/-! ## Frames -/

section Laws

variable {Buf : Type} [PrefixBuffer Buf] {codec : ConnectIpDatagramCodec} {streamId : UInt64}

theorem prepend_spec (isFor : codec.For streamId) {packet : Buf} (room : 9 ≤ headroom packet) :
    ∃ framed, codec.prepend packet = (true, framed) ∧
      visible framed = codec.qsiBytes ++ contextIdIp :: visible packet := by
  have short := (Varint.encode_length isFor.encoded).2
  obtain ⟨marked, added, shown, left⟩ := addPrefix_fits packet [contextIdIp] (by simp; omega)
  rw [List.length_singleton] at left
  obtain ⟨framed, framedAdded, framedShown, _⟩ := addPrefix_fits marked codec.qsiBytes (by omega)
  exact ⟨framed, by simp [prepend, added, framedAdded], by rw [framedShown, shown]; rfl⟩

theorem visible_prepend {packet framed : Buf} (made : codec.prepend packet = (true, framed)) :
    visible framed = codec.qsiBytes ++ contextIdIp :: visible packet := by
  unfold prepend at made
  by_cases room : [contextIdIp].length ≤ headroom packet
  · obtain ⟨marked, added, shown, _⟩ := addPrefix_fits packet [contextIdIp] room
    simp only [added] at made
    by_cases more : codec.qsiBytes.length ≤ headroom marked
    · obtain ⟨next, nextAdded, nextShown, _⟩ := addPrefix_fits marked codec.qsiBytes more
      rw [nextAdded, Prod.mk.injEq] at made
      rw [← made.2, nextShown, shown]
      rfl
    · rw [addPrefix_full marked codec.qsiBytes (by omega)] at made
      cases made
  · rw [addPrefix_full packet [contextIdIp] (by omega)] at made
    cases made

/-- The bytes are a frame of the stream: the shortest encoding, the context id, a payload. -/
def Frames (streamId : UInt64) (bytes payload : List UInt8) : Prop :=
  ∃ code, Varint.Shortest code (streamId.toNat / 4) ∧ bytes = code ++ contextIdIp :: payload ∧
    payload ≠ []

theorem frames_iff (isFor : codec.For streamId) {bytes payload : List UInt8} :
    Frames streamId bytes payload ↔ bytes = codec.qsiBytes ++ contextIdIp :: payload ∧
    payload ≠ [] := by
  have shortest := Varint.shortest_of_encode isFor.encoded
  constructor
  · rintro ⟨code, short, rfl, nonempty⟩
    rw [short.unique shortest]
    exact ⟨rfl, nonempty⟩
  · rintro ⟨rfl, nonempty⟩
    exact ⟨codec.qsiBytes, shortest, rfl, nonempty⟩

theorem decodeQsi_match (isFor : codec.For streamId) (bytes : List UInt8) :
    (∃ qsi qsiLen, decodeQsi bytes = some (qsi, qsiLen) ∧
      ¬ (qsi ≠ codec.expectedQsi.toNat ∨ qsiLen ≠ codec.qsiBytes.length)) ↔
        codec.qsiBytes <+: bytes := by
  rw [← Varint.decode_eq_iff isFor.encoded, decodeQsi_eq]
  constructor
  · rintro ⟨qsi, qsiLen, decoded, same⟩
    rw [not_or, not_not, not_not, isFor.expected] at same
    rw [decoded, same.1, same.2]
  · intro decoded
    exact ⟨_, _, decoded, by simp [isFor.expected]⟩

theorem strip_total (codec : ConnectIpDatagramCodec) (packet : Buf) :
    ∃ accepted next, codec.strip packet = some (accepted, next) := by
  unfold strip
  split
  · exact ⟨false, packet, rfl⟩
  next qsi qsiLen _ =>
    split
    · exact ⟨false, packet, rfl⟩
    simp only
    split
    · exact ⟨false, packet, rfl⟩
    next whole =>
      split
      · exact ⟨false, packet, rfl⟩
      · have enough : qsiLen + 1 ≤ (visible packet).length := Nat.le_of_not_lt fun short =>
          whole (.inl short)
        obtain ⟨next, popped, _⟩ := popFront_spec packet (qsiLen + 1) enough
        exact ⟨true, next, by rw [popped, Option.map_some]⟩

/-- What does not start with the codec's encoding is refused by the first checks. -/
theorem strip_foreign (isFor : codec.For streamId) {packet : Buf}
    (foreign : ¬ codec.qsiBytes <+: visible packet) :
    codec.strip packet = some (false, packet) := by
  rw [← decodeQsi_match isFor] at foreign
  unfold strip
  cases decoded : decodeQsi (visible packet) with
  | none => rfl
  | some found =>
    obtain ⟨qsi, qsiLen⟩ := found
    have different : qsi ≠ codec.expectedQsi.toNat ∨ qsiLen ≠ codec.qsiBytes.length := by
      by_contra same
      exact foreign ⟨qsi, qsiLen, decoded, same⟩
    simp only [different, if_true]

theorem strip_own (isFor : codec.For streamId) {packet : Buf} {rest : List UInt8}
    (own : visible packet = codec.qsiBytes ++ rest) :
    codec.strip packet =
      if rest.head? = some contextIdIp ∧ rest.tail ≠ [] then
        (popFront packet (codec.qsiBytes.length + 1)).map fun next => (true, next)
      else some (false, packet) := by
  have decoded : decodeQsi (codec.qsiBytes ++ rest) =
      some (codec.expectedQsi.toNat, codec.qsiBytes.length) := by
    rw [decodeQsi_eq, isFor.expected, Varint.decode_eq_iff isFor.encoded]
    exact List.prefix_append _ _
  unfold strip
  rw [own, decoded]
  cases rest with
  | nil => simp
  | cons context payload =>
    by_cases ip : context = contextIdIp
    · cases payload <;> simp [ip]
    · simp [ip]

theorem strip_spec (isFor : codec.For streamId) (packet : Buf) :
    (∃ payload next, Frames streamId (visible packet) payload ∧
      codec.strip packet = some (true, next) ∧
      visible next = payload ∧ headroom packet ≤ headroom next) ∨
    (∀ payload, ¬ Frames streamId (visible packet) payload) ∧
      codec.strip packet = some (false, packet) := by
  by_cases own : codec.qsiBytes <+: visible packet
  · obtain ⟨rest, shown⟩ := own
    rw [strip_own isFor shown.symm]
    by_cases framed : rest.head? = some contextIdIp ∧ rest.tail ≠ []
    · left
      obtain ⟨payload, rfl⟩ := List.head?_eq_some_iff.mp framed.1
      have enough : codec.qsiBytes.length + 1 ≤ (visible packet).length := by
        rw [← shown, List.length_append, List.length_cons]
        omega
      obtain ⟨next, popped, left, room⟩ := popFront_spec packet (codec.qsiBytes.length + 1) enough
      refine ⟨payload, next, (frames_iff isFor).mpr ⟨shown.symm, framed.2⟩, ?_, ?_, by omega⟩
      · rw [if_pos framed, popped]
        rfl
      · rw [left, ← shown, List.drop_append]
        simp
    · right
      refine ⟨fun payload frame => ?_, if_neg framed⟩
      obtain ⟨same, nonempty⟩ := (frames_iff isFor).mp frame
      rw [← shown, List.append_cancel_left_eq] at same
      exact framed (by simp [same, nonempty])
  · right
    refine ⟨fun payload frame => own ?_, strip_foreign isFor own⟩
    rw [((frames_iff isFor).mp frame).1]
    exact List.prefix_append _ _

/-- Decoding sees only one of two encodings that the same bytes start with. -/
theorem quarter_eq_of_isPrefix {other : UInt64} {otherCodec : ConnectIpDatagramCodec}
    {bytes : List UInt8} (isFor : codec.For streamId) (isOther : otherCodec.For other)
    (starts : codec.qsiBytes <+: bytes) (otherStarts : otherCodec.qsiBytes <+: bytes) :
    streamId.toNat / 4 = other.toNat / 4 := by
  have decoded := (Varint.decode_eq_iff isFor.encoded).mpr starts
  rw [(Varint.decode_eq_iff isOther.encoded).mpr otherStarts, Option.some.injEq,
    Prod.mk.injEq] at decoded
  exact decoded.1.symm

theorem strip_prepend_foreign {other : UInt64} {otherCodec : ConnectIpDatagramCodec}
    {packet framed : Buf} (isFor : codec.For streamId) (isOther : otherCodec.For other)
    (different : other.toNat / 4 ≠ streamId.toNat / 4)
    (made : otherCodec.prepend packet = (true, framed)) :
    codec.strip framed = some (false, framed) := by
  apply strip_foreign isFor
  intro starts
  apply different
  apply quarter_eq_of_isPrefix isOther isFor _ starts
  rw [visible_prepend made]
  exact List.prefix_append _ _

theorem strip_prepend (isFor : codec.For streamId) {packet : Buf} (nonempty : visible packet ≠ [])
    (room : 9 ≤ headroom packet) : ∃ framed restored, codec.prepend packet = (true, framed) ∧
      codec.strip framed = some (true, restored) ∧ visible restored = visible packet := by
  obtain ⟨framed, made, shown⟩ := prepend_spec isFor room
  have isFrame : Frames streamId (visible framed) (visible packet) :=
    (frames_iff isFor).mpr ⟨shown, nonempty⟩
  rcases strip_spec isFor framed with ⟨payload, restored, frame, stripped, left, _⟩ | ⟨noFrame, _⟩
  · have same := ((frames_iff isFor).mp frame).1
    rw [shown, List.append_cancel_left_eq, List.cons.injEq] at same
    exact ⟨framed, restored, made, stripped, left.trans same.2.symm⟩
  · exact absurd isFrame (noFrame _)

end Laws

/-- For every stream id there is a codec. It takes a packet with nine bytes of headroom
there and back, accepts exactly the frames of its own quarter stream id, and refuses those
made for another one; both allocations leave the headroom that it needs. -/
theorem datagram_codec {Buf : Type} [PrefixBuffer Buf] (streamId : UInt64) :
    ∃ codec, new streamId = some codec ∧
      (∀ packet : Buf, visible packet ≠ [] → 9 ≤ headroom packet → ∃ framed restored,
        codec.prepend packet = (true, framed) ∧ codec.strip framed = some (true, restored) ∧
        visible restored = visible packet) ∧
      (∀ packet : Buf, ∃ accepted next, codec.strip packet = some (accepted, next) ∧
        (accepted = true ↔ ∃ payload, Frames streamId (visible packet) payload) ∧
        (accepted = true → Frames streamId (visible packet) (visible next)) ∧
        (accepted = false → next = packet) ∧ headroom packet ≤ headroom next) ∧
      (∀ (other : UInt64) (otherCodec : ConnectIpDatagramCodec) (packet framed : Buf),
        other.toNat / 4 ≠ streamId.toNat / 4 → new other = some otherCodec →
        otherCodec.prepend packet = (true, framed) → codec.strip framed = some (false, framed)) ∧
      (∀ pooled : Buf, headroom pooled = 0 →
        (∀ length buf, allocUninitPacketBuf pooled length = some buf → 9 ≤ headroom buf) ∧
        ∀ data buf, allocPacketBuf pooled data = some buf → 9 ≤ headroom buf) := by
  obtain ⟨codec, made, isFor⟩ := new_total streamId
  refine ⟨codec, made, fun packet => strip_prepend isFor, fun packet => ?_, ?_,
    fun pooled reset => ⟨?_, ?_⟩⟩
  · rcases strip_spec isFor packet with ⟨payload, next, frame, stripped, rfl,
      room⟩ | ⟨noFrame, stripped⟩
    · exact ⟨true, next, stripped, by simpa using ⟨_, frame⟩, fun _ => frame, by simp, room⟩
    · exact ⟨false, packet, stripped, by simpa using noFrame, by simp, fun _ => rfl, Nat.le_refl _⟩
  · intro other otherCodec packet framed different otherMade
    exact strip_prepend_foreign isFor (for_of_new otherMade) different
  · intro length buf allocated
    obtain ⟨same, isSame, room, _⟩ := allocUninitPacketBuf_spec reset length
    rw [allocated, Option.some.injEq] at isSame
    rw [isSame, room]
    decide
  · intro data buf allocated
    by_cases fits : data.length ≤ maxPayload
    · obtain ⟨same, isSame, _, room⟩ := allocPacketBuf_some reset fits
      rw [allocated, Option.some.injEq] at isSame
      rw [isSame, room]
      decide
    · rw [allocPacketBuf_none reset (Nat.lt_of_not_le fits)] at allocated
      cases allocated

end ConnectIpDatagramCodec

instance : PrefixBuffer VecBuffer where
  addPrefix buf data :=
    if room : data.length ≤ buf.head then
      (true, ⟨buf.inner.take (buf.head - data.length) ++ (data ++ buf.inner.drop buf.head),
        buf.head - data.length, by
        have := buf.bound
        simp only [List.length_append, List.length_take, List.length_drop]
        omega⟩)
    else (false, buf)
  addPrefix_fits buf data room := by
    have room : data.length ≤ buf.head := room
    refine ⟨_, dif_pos room, ?_, Nat.sub_add_cancel room⟩
    have start : (buf.inner.take (buf.head - data.length)).length = buf.head - data.length := by
      have := buf.bound
      rw [List.length_take]
      omega
    exact List.drop_left' start
  addPrefix_full buf data full := dif_neg (Nat.not_le.mpr full)

theorem datagram_codec_stream256 :
    ∃ codec, ConnectIpDatagramCodec.new 256 = some codec ∧ codec.qsiBytes = [0x40, 0x40] ∧
    ∃ framed restored : VecBuffer,
      codec.prepend (⟨List.replicate 10 0 ++ [0x45, 1], 10, by decide⟩ : VecBuffer) =
        (true, framed) ∧
      codec.strip framed = some (true, restored) ∧ visible restored = [0x45, 1] := by
  obtain ⟨codec, made, returns, _⟩ := @ConnectIpDatagramCodec.datagram_codec VecBuffer _ 256
  refine ⟨codec, made, ?_, returns _ (by decide) (by decide)⟩
  have known : ConnectIpDatagramCodec.new 256 = some ⟨64, [0x40, 0x40]⟩ := by decide +kernel
  rw [made, Option.some.injEq] at known
  rw [known]

end H3llo.H3
