import Hsm.Kmip.RoundTrip

/-! Reading framed messages from a connection. -/

namespace Hsm

def maxKmipMessageSize : Nat := 4 * 1024 * 1024

inductive ConnectionError where
  | unexpectedEof
  | other (message : String)
  deriving DecidableEq, Repr

/-- An error of the connection, or taking too long. -/
inductive ReadFailure where
  | io (error : ConnectionError)
  | elapsed
  deriving DecidableEq, Repr

inductive KmipError where
  | io (error : ConnectionError)
  | invalidMessage (message : String)
  deriving DecidableEq, Repr

/-- The peer's bytes, and failures of reads. -/
structure ByteStream where
  bytes : Bytes
  failures : List (Option ReadFailure) := []

def ByteStream.readExact (stream : ByteStream) (count : Nat) :
    Except ReadFailure Bytes × ByteStream :=
  match stream.failures with
  | some failure :: failures => (.error failure, { stream with failures })
  | failures =>
    if count ≤ stream.bytes.length then
      (.ok (stream.bytes.take count), ⟨stream.bytes.drop count, failures.tail⟩)
    else (.error (.io .unexpectedEof), ⟨[], failures.tail⟩)

inductive FramedRead where
  | message (bytes : Bytes)
  | eof
  deriving DecidableEq, Repr

def readFramedMessage (stream : ByteStream) : Except KmipError FramedRead × ByteStream :=
  match stream.readExact 8 with
  | (.error (.io .unexpectedEof), stream) => (.ok .eof, stream)
  | (.error (.io error), stream) => (.error (.io error), stream)
  | (.error .elapsed, stream) =>
    (.error (.invalidMessage "timed out reading message header"), stream)
  | (.ok header, stream) =>
    let length := beValue (header.drop 4)
    -- Oversized declarations are rejected before anything is allocated.
    if maxKmipMessageSize < length then
      (.error (.invalidMessage
        s!"declared message body length {length} exceeds maximum {maxKmipMessageSize}"), stream)
    else
      match stream.readExact length with
      | (.ok body, stream) => (.ok (.message (header ++ body)), stream)
      | (.error (.io error), stream) => (.error (.io error), stream)
      | (.error .elapsed, stream) =>
        (.error (.invalidMessage "timed out reading message body"), stream)

def readFrames : Nat → ByteStream → List (Except KmipError FramedRead)
  | 0, _ => []
  | count + 1, stream =>
    (readFramedMessage stream).1 :: readFrames count (readFramedMessage stream).2

namespace ByteStream

theorem readExact_append (front rest : Bytes) :
    readExact ⟨front ++ rest, []⟩ front.length = (.ok front, ⟨rest, []⟩) := by
  simp [readExact]

end ByteStream

open TtlvEncoder TtlvDecoder

theorem beValue_headerBytes {length : Nat} (fits : length < 2 ^ 32) (tag : Tag)
    (ttlvType : TtlvType) : beValue ((headerBytes tag ttlvType length).drop 4) = length := by
  have behind : (headerBytes tag ttlvType length).drop 4 = beBytes 4 length := rfl
  rw [behind, beValue_beBytes]
  exact Nat.mod_eq_of_lt fits

theorem readFramedMessage_append {body : Bytes} (small : body.length ≤ maxKmipMessageSize)
    (tag : Tag) (ttlvType : TtlvType) (rest : Bytes) :
    readFramedMessage ⟨headerBytes tag ttlvType body.length ++ body ++ rest, []⟩ =
      (.ok (.message (headerBytes tag ttlvType body.length ++ body)), ⟨rest, []⟩) := by
  have fits : body.length < 2 ^ 32 := by
    simp only [maxKmipMessageSize] at small
    omega
  have accepted : ¬ maxKmipMessageSize < body.length := by omega
  -- First the eight bytes of the header are read, then as many as it declares.
  have header := ByteStream.readExact_append (headerBytes tag ttlvType body.length) (body ++ rest)
  rw [headerBytes_length] at header
  rw [List.append_assoc]
  simp only [readFramedMessage, header, beValue_headerBytes fits, accepted, if_false,
    ByteStream.readExact_append]

mutual

theorem lengthsFit_of_size (item : Ttlv) (small : encodedSize item < 2 ^ 32) :
    item.LengthsFit := by
  match item with
  | .mk _ (.structure items) =>
    simp only [encodedSize] at small
    refine ⟨?_, allLengthsFit_of_size items (by omega)⟩
    rw [encodeItems_length]
    omega
  | .mk _ (.bigInteger value) | .mk _ (.byteString value) =>
    simp only [encodedSize, paddedLen] at small
    show value.length < 2 ^ 32
    omega
  | .mk _ (.textString value) =>
    simp only [encodedSize, paddedLen] at small
    show (asBytes value).length < 2 ^ 32
    omega
  | .mk _ (.integer _) | .mk _ (.longInteger _) | .mk _ (.enumeration _) | .mk _ (.boolean _)
  | .mk _ (.dateTime _) | .mk _ (.interval _) => trivial

theorem allLengthsFit_of_size (items : List Ttlv) (small : encodedSizes items < 2 ^ 32) :
    Ttlv.AllLengthsFit items := by
  match items with
  | [] => trivial
  | item :: items =>
    simp only [encodedSizes] at small
    exact ⟨lengthsFit_of_size item (by omega), allLengthsFit_of_size items (by omega)⟩

end

theorem peekMessageLength_encode {items : List Ttlv} (small : (encodeItems items).length < 2 ^ 32)
    (tag : Tag) (rest : Bytes) :
    peekMessageLength (encode (.mk tag (.structure items)) ++ rest) =
      some (encode (.mk tag (.structure items))).length := by
  have long : ¬ (encode (.mk tag (.structure items)) ++ rest).length < 8 := by
    simp only [encode, encodeItem, List.length_append, headerBytes_length]
    omega
  -- The length field lies between the type and the body.
  have field : ((encode (.mk tag (.structure items)) ++ rest).drop 4).take 4 =
      (headerBytes tag .structure (encodeItems items).length).drop 4 := rfl
  rw [peekMessageLength, if_neg long, field, beValue_headerBytes small]
  simp [encode, encodeItem]

/-- A structure the server can receive. -/
structure Ttlv.Message (item : Ttlv) : Prop where
  isStructure : ∃ tag items, item = .mk tag (.structure items) ∧
    (encodeItems items).length ≤ maxKmipMessageSize
  depth : item.depth ≤ maxTtlvDepth
  tags : item.TagsFit

theorem Ttlv.Message.read {item : Ttlv} (message : item.Message) (rest : Bytes) :
    readFramedMessage ⟨encode item ++ rest, []⟩ = (.ok (.message (encode item)), ⟨rest, []⟩) := by
  obtain ⟨tag, items, rfl, small⟩ := message.isStructure
  exact readFramedMessage_append small tag .structure rest

theorem Ttlv.Message.decoded {item : Ttlv} (message : item.Message) :
    decode (encode item) = .ok item := by
  obtain ⟨tag, items, rfl, small⟩ := message.isStructure
  have lengths : (Ttlv.mk tag (.structure items)).LengthsFit := by
    apply lengthsFit_of_size
    rw [encodeItems_length] at small
    simp only [encodedSize, maxKmipMessageSize] at small ⊢
    omega
  have whole := decodeWithin_encodeItem _ message.tags lengths message.depth []
  rw [List.append_nil] at whole
  rw [decode, decodeItem, encode, Nat.sub_zero, whole]
  rfl

theorem readFrames_encode {items : List Ttlv} (messages : ∀ item ∈ items, item.Message) :
    readFrames (items.length + 1) ⟨items.flatMap encode, []⟩ =
      items.map (fun item => .ok (.message (encode item))) ++ [.ok .eof] := by
  induction items with
  | nil => rfl
  | cons item items ih =>
    -- Reading a message leaves the bytes of the later ones, so the next read starts in step.
    have first := (messages item (by simp)).read (items.flatMap encode)
    rw [List.flatMap_cons, List.length_cons, readFrames, first,
      ih (fun item member => messages item (by simp [member]))]
    rfl

/-- Framing recovers the messages, their items and their lengths. -/
theorem framing_recovers_messages (items : List Ttlv) (messages : ∀ item ∈ items, item.Message) :
    (readFrames (items.length + 1) ⟨items.flatMap encode, []⟩ =
        items.map (fun item => .ok (.message (encode item))) ++ [.ok .eof] ∧
      ∀ item ∈ items, decode (encode item) = .ok item) ∧
      (∀ item : Ttlv, encodedSize item = (encode item).length ∧ (encode item).length % 8 = 0) ∧
      ∀ (tag : Tag) (items : List Ttlv) (rest : Bytes), (encodeItems items).length < 2 ^ 32 →
        peekMessageLength (encode (.mk tag (.structure items)) ++ rest) =
          some (encode (.mk tag (.structure items))).length := by
  refine ⟨⟨readFrames_encode messages, fun item member => (messages item member).decoded⟩, ?_, ?_⟩
  · intro item
    have size := encodeItem_length item
    rw [encode, size]
    exact ⟨rfl, encodedSize_aligned item⟩
  · exact fun tag items rest small => peekMessageLength_encode small tag rest

namespace Sample

def wideTag : Ttlv := .mk ⟨0x1000000⟩ (.structure [])

def requests : List Ttlv := [TtlvDecoder.Sample.request, .mk ⟨0x420078⟩ (.structure [])]

theorem requests_messages : ∀ item ∈ requests, item.Message := by
  intro item member
  rcases List.mem_cons.mp member with rfl | member
  · exact ⟨⟨_, _, rfl, by decide +kernel⟩, by decide, TtlvDecoder.Sample.request_tags⟩
  · obtain rfl := List.mem_singleton.mp member
    exact ⟨⟨_, _, rfl, by decide⟩, by decide, by simp [Ttlv.TagsFit, Ttlv.AllTagsFit]⟩

end Sample

theorem wide_tag_not_recovered :
    (Sample.wideTag.depth ≤ maxTtlvDepth ∧ Sample.wideTag.isStructure ∧
        (encode Sample.wideTag).length ≤ maxKmipMessageSize ∧
        decode (encode Sample.wideTag) ≠ .ok Sample.wideTag) ∧
      peekMessageLength (encode (.mk ⟨0x42000D⟩ (.integer 1))) ≠
        some (encode (.mk ⟨0x42000D⟩ (.integer 1))).length := by
  have lost : decode (encode Sample.wideTag) = .ok (.mk ⟨0⟩ (.structure [])) := rfl
  refine ⟨⟨by decide, rfl, by decide, ?_⟩, by decide⟩
  rw [lost]
  intro same
  cases same

theorem framing_recovers_messages_pair :
    (∀ item ∈ Sample.requests, item.Message) ∧
      readFrames 3 ⟨Sample.requests.flatMap encode, []⟩ =
        Sample.requests.map (fun item => .ok (.message (encode item))) ++ [.ok .eof] ∧
      ∀ item ∈ Sample.requests, decode (encode item) = .ok item := by
  obtain ⟨⟨frames, decoded⟩, -⟩ :=
    framing_recovers_messages Sample.requests Sample.requests_messages
  exact ⟨Sample.requests_messages, frames, decoded⟩

end Hsm
