import Hsm.Kmip.Decoder

/-! Decoding undoes encoding and stops where the encoding ends. -/

namespace Hsm

namespace Ttlv

open TtlvEncoder

mutual

def depth : Ttlv → Nat
  | mk _ (.structure items) => 1 + depths items
  | mk _ _ => 1

def depths : List Ttlv → Nat
  | [] => 0
  | item :: items => max (depth item) (depths items)

end

mutual

def TagsFit : Ttlv → Prop
  | mk tag (.structure items) => tag.value.toNat < 2 ^ 24 ∧ AllTagsFit items
  | mk tag _ => tag.value.toNat < 2 ^ 24

def AllTagsFit : List Ttlv → Prop
  | [] => True
  | item :: items => TagsFit item ∧ AllTagsFit items

end

mutual

def LengthsFit : Ttlv → Prop
  | mk _ (.structure items) => (encodeItems items).length < 2 ^ 32 ∧ AllLengthsFit items
  | mk _ (.bigInteger value) => value.length < 2 ^ 32
  | mk _ (.textString value) => (asBytes value).length < 2 ^ 32
  | mk _ (.byteString value) => value.length < 2 ^ 32
  | mk _ _ => True

def AllLengthsFit : List Ttlv → Prop
  | [] => True
  | item :: items => LengthsFit item ∧ AllLengthsFit items

end

theorem depth_pos (item : Ttlv) : 0 < item.depth := by
  obtain ⟨_, value⟩ := item
  cases value <;> unfold depth <;> omega

theorem TagsFit.tag {tag : Tag} {value : TtlvValue Ttlv} (fit : TagsFit (mk tag value)) :
    tag.value.toNat < 2 ^ 24 := by
  match value, fit with
  | .structure _, fit => exact fit.1
  | .integer _, fit | .longInteger _, fit | .bigInteger _, fit | .enumeration _, fit
  | .boolean _, fit | .textString _, fit | .byteString _, fit | .dateTime _, fit
  | .interval _, fit => exact fit

end Ttlv

namespace TtlvDecoder

open TtlvEncoder

@[simp] theorem getU32_beBytes (value : UInt32) (rest : Bytes) :
    getU32 (beBytes 4 value.toNat ++ rest) = value := by
  have small : value.toNat < 256 ^ 4 := value.toNat_lt
  rw [getU32, List.take_left' (by simp), beValue_beBytes, Nat.mod_eq_of_lt small]
  simp

@[simp] theorem getU64_beBytes (value : UInt64) (rest : Bytes) :
    getU64 (beBytes 8 value.toNat ++ rest) = value := by
  have small : value.toNat < 256 ^ 8 := value.toNat_lt
  rw [getU64, List.take_left' (by simp), beValue_beBytes, Nat.mod_eq_of_lt small]
  simp

@[simp] theorem fromUtf8_asBytes (text : String) : fromUtf8 (asBytes text) = .ok text := by
  rw [fromUtf8, fromUTF8?_asBytes]

theorem decodeWithin_header {room length : Nat} {tag : Tag} {ttlvType : TtlvType}
    {body rest : Bytes} {value : TtlvValue Ttlv} (small : tag.value.toNat < 2 ^ 24)
    (fits : length < 2 ^ 32) (enough : paddedLength ttlvType length ≤ body.length)
    (valued : decodeValue (decodeWithin room) ⟨tag, ttlvType, length⟩ body = .ok (value, rest)) :
    decodeWithin (room + 1) (headerBytes tag ttlvType length ++ body) =
      .ok (.mk tag value, rest) := by
  have room : ¬ body.length < paddedLength ttlvType length := by omega
  simp only [decodeWithin, readHeader_headerBytes small fits, bind, Except.bind, room, if_false,
    valued, pure, Except.pure]

section

variable {inner : Nat} {tag : Tag} {ttlvType : TtlvType} (small : tag.value.toNat < 2 ^ 24)

include small

theorem decodeWithin_word {f : UInt32 → TtlvValue Ttlv} (size : paddedLength ttlvType 4 = 8)
    (reads : ∀ buf, decodeValue (decodeWithin inner) ⟨tag, ttlvType, 4⟩ buf =
      .ok (f (getU32 buf), (buf.drop 4).drop 4)) (word : UInt32) (rest : Bytes) :
    decodeWithin (inner + 1)
        (headerBytes tag ttlvType 4 ++ (beBytes 4 word.toNat ++ putU32 0) ++ rest) =
      .ok (.mk tag (f word), rest) := by
  rw [List.append_assoc]
  apply decodeWithin_header small (by decide)
  · simp only [size, putU32, List.length_append, beBytes_length]
    omega
  · have left : ((beBytes 4 word.toNat ++ putU32 0 ++ rest).drop 4).drop 4 = rest := by
      rw [List.drop_drop]
      exact List.drop_left' (by simp [putU32])
    rw [reads, left, List.append_assoc, getU32_beBytes]

theorem decodeWithin_long {f : UInt64 → TtlvValue Ttlv} (size : paddedLength ttlvType 8 = 8)
    (reads : ∀ buf, decodeValue (decodeWithin inner) ⟨tag, ttlvType, 8⟩ buf =
      .ok (f (getU64 buf), buf.drop 8)) (word : UInt64) (rest : Bytes) :
    decodeWithin (inner + 1) (headerBytes tag ttlvType 8 ++ beBytes 8 word.toNat ++ rest) =
      .ok (.mk tag (f word), rest) := by
  rw [List.append_assoc]
  apply decodeWithin_header small (by decide)
  · simp only [size, List.length_append, beBytes_length]
    omega
  · rw [reads, getU64_beBytes, List.drop_left' (by simp)]

theorem decodeWithin_padded {bytes : Bytes} {value : TtlvValue Ttlv}
    (fits : bytes.length < 2 ^ 32)
    (size : paddedLength ttlvType bytes.length = bytes.length + padding bytes.length)
    (reads : ∀ buf, buf.take bytes.length = bytes →
      decodeValue (decodeWithin inner) ⟨tag, ttlvType, bytes.length⟩ buf =
        .ok (value, skipPadding (buf.drop bytes.length) bytes.length)) (rest : Bytes) :
    decodeWithin (inner + 1)
        (headerBytes tag ttlvType bytes.length ++ (bytes ++ padTo8 bytes.length) ++ rest) =
      .ok (.mk tag value, rest) := by
  rw [List.append_assoc]
  have room : bytes.length + padding bytes.length ≤
      (bytes ++ padTo8 bytes.length ++ rest).length := by simp
  apply decodeWithin_header small fits
  · rw [size]
    exact room
  · rw [reads _ (by rw [List.append_assoc, List.take_left]), skipPadding_drop room,
      List.drop_left' (by simp)]

end

theorem readAll_encodeItems {items : List Ttlv} {room : Nat}
    (each : ∀ item ∈ items, ∀ rest, decodeWithin room (encodeItem item ++ rest) = .ok (item, rest)) :
    readAll (decodeWithin room) (encodeItems items).length (encodeItems items) = .ok items := by
  rw [encodeItems_flatMap]
  apply readAll_flatMap each _ (Nat.le_refl _)
  intro item _ empty
  have size := encodeItem_length item
  have header := encodedSize_pos item
  rw [empty, List.length_nil] at size
  omega

mutual

theorem decodeWithin_encodeItem (item : Ttlv) (tags : item.TagsFit) (lengths : item.LengthsFit)
    {room : Nat} (deep : item.depth ≤ room) (rest : Bytes) :
    decodeWithin room (encodeItem item ++ rest) = .ok (item, rest) := by
  have positive := item.depth_pos
  obtain ⟨inner, rfl⟩ : ∃ inner, room = inner + 1 := ⟨room - 1, by omega⟩
  match item with
  | .mk tag (.structure items) =>
    -- The items have one level less, and their bytes are exactly the declared ones.
    have levels : Ttlv.depths items ≤ inner := by
      simp only [Ttlv.depth] at deep
      omega
    have nested := readAll_encodeItems
      (decodeWithin_encodeItem_mem items tags.2 lengths.2 levels)
    rw [encodeItem, List.append_assoc]
    apply decodeWithin_header tags.1 lengths.1 (by simp [paddedLength])
    simp [decodeValue, nested, bind, Except.bind, pure, Except.pure]
  | .mk tag (.integer value) =>
    exact decodeWithin_word (f := fun word => .integer word.toInt32) tags.tag rfl (fun _ => rfl)
      value.toUInt32 rest
  | .mk tag (.longInteger value) =>
    exact decodeWithin_long (f := fun word => .longInteger word.toInt64) tags.tag rfl (fun _ => rfl)
      value.toUInt64 rest
  | .mk tag (.bigInteger value) =>
    refine decodeWithin_padded tags.tag lengths rfl (fun buf taken => ?_) rest
    simp only [decodeValue, taken]
    rfl
  | .mk tag (.enumeration value) =>
    exact decodeWithin_word (f := .enumeration) tags.tag rfl (fun _ => rfl) value rest
  | .mk tag (.boolean true) =>
    exact decodeWithin_long (f := fun word => .boolean (word ≠ 0)) tags.tag rfl (fun _ => rfl) 1 rest
  | .mk tag (.boolean false) =>
    exact decodeWithin_long (f := fun word => .boolean (word ≠ 0)) tags.tag rfl (fun _ => rfl) 0 rest
  | .mk tag (.textString value) =>
    refine decodeWithin_padded tags.tag lengths rfl (fun buf taken => ?_) rest
    simp only [decodeValue, taken, fromUtf8_asBytes]
    rfl
  | .mk tag (.byteString value) =>
    refine decodeWithin_padded tags.tag lengths rfl (fun buf taken => ?_) rest
    simp only [decodeValue, taken]
    rfl
  | .mk tag (.dateTime value) =>
    exact decodeWithin_long (f := fun word => .dateTime word.toInt64) tags.tag rfl (fun _ => rfl)
      value.toUInt64 rest
  | .mk tag (.interval value) =>
    exact decodeWithin_word (f := .interval) tags.tag rfl (fun _ => rfl) value rest

theorem decodeWithin_encodeItem_mem (items : List Ttlv) (tags : Ttlv.AllTagsFit items)
    (lengths : Ttlv.AllLengthsFit items) {room : Nat} (deep : Ttlv.depths items ≤ room) :
    ∀ item ∈ items, ∀ rest, decodeWithin room (encodeItem item ++ rest) = .ok (item, rest) := by
  match items with
  | [] => exact fun _ member => nomatch member
  | first :: others =>
    simp only [Ttlv.depths] at deep
    have here := decodeWithin_encodeItem first tags.1 lengths.1 (show first.depth ≤ room by omega)
    have there := decodeWithin_encodeItem_mem others tags.2 lengths.2
      (show Ttlv.depths others ≤ room by omega)
    intro item member
    rcases List.mem_cons.mp member with rfl | member
    · exact here
    · exact there item member

end

/-- Decoding undoes encoding and leaves exactly the bytes behind it. -/
theorem decodeFromBytes_encode (item : Ttlv) (tags : item.TagsFit) (lengths : item.LengthsFit)
    (deep : item.depth ≤ maxTtlvDepth) (rest : Bytes) :
    decodeFromBytes (encode item ++ rest) = .ok (item, rest) :=
  decodeWithin_encodeItem item tags lengths deep rest

namespace Sample

def request : Ttlv :=
  .mk ⟨0x420078⟩ (.structure [
    .mk ⟨0x42000D⟩ (.integer 1),
    .mk ⟨0x42000F⟩ (.structure [
      .mk ⟨0x42005C⟩ (.enumeration 1),
      .mk ⟨0x420094⟩ (.textString "key"),
      .mk ⟨0x4200C2⟩ (.byteString [1, 2, 3, 4, 5])])])

theorem request_tags : request.TagsFit := by
  simp [request, Ttlv.TagsFit, Ttlv.AllTagsFit]

theorem request_lengths : request.LengthsFit := by
  have text : (asBytes "key").length < 2 ^ 32 := by decide +kernel
  have data : ([1, 2, 3, 4, 5] : Bytes).length < 2 ^ 32 := by decide
  exact ⟨by decide +kernel, trivial, ⟨by decide +kernel, trivial, text, data, trivial⟩, trivial⟩

end Sample

theorem decodeFromBytes_encode_request :
    Sample.request.TagsFit ∧ Sample.request.LengthsFit ∧ Sample.request.depth ≤ maxTtlvDepth ∧
      decodeFromBytes (encode Sample.request ++ [0x42, 0x00]) =
        .ok (Sample.request, [0x42, 0x00]) := by
  have deep : Sample.request.depth ≤ maxTtlvDepth := by decide
  exact ⟨Sample.request_tags, Sample.request_lengths, deep,
    decodeFromBytes_encode Sample.request Sample.request_tags Sample.request_lengths deep _⟩

end TtlvDecoder

end Hsm
