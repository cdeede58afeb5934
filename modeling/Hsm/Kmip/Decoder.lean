import Hsm.Kmip.Ttlv
import Hsm.Lib.ReadAll

/-! The decoder of TTLV items, and what an accepted item consumes. -/

namespace Hsm

inductive TtlvError where
  | invalidType (value : UInt8)
  | unexpectedEof
  | invalidEncoding (message : String)
  | invalidUtf8
  deriving DecidableEq, Repr

def maxTtlvDepth : Nat := 64

def TtlvType.tryFrom (value : UInt8) : Except TtlvError TtlvType :=
  match value with
  | 0x01 => .ok .structure
  | 0x02 => .ok .integer
  | 0x03 => .ok .longInteger
  | 0x04 => .ok .bigInteger
  | 0x05 => .ok .enumeration
  | 0x06 => .ok .boolean
  | 0x07 => .ok .textString
  | 0x08 => .ok .byteString
  | 0x09 => .ok .dateTime
  | 0x0A => .ok .interval
  | _ => .error (.invalidType value)

structure TtlvHeader where
  tag : Tag
  ttlvType : TtlvType
  length : Nat
  deriving DecidableEq, Repr

namespace TtlvDecoder

def readHeader : Bytes → Except TtlvError (TtlvHeader × Bytes)
  | high :: middle :: low :: kind :: l3 :: l2 :: l1 :: l0 :: rest => do
    let tag : Tag := ⟨high.toUInt32 <<< 16 ||| middle.toUInt32 <<< 8 ||| low.toUInt32⟩
    let ttlvType ← TtlvType.tryFrom kind
    return (⟨tag, ttlvType, beValue [l3, l2, l1, l0]⟩, rest)
  | _ => .error .unexpectedEof

def paddedLength (ttlvType : TtlvType) (length : Nat) : Nat :=
  match ttlvType with
  -- These types have fixed sizes and include padding in the value.
  | .integer | .enumeration | .interval => 8
  | .longInteger | .dateTime | .boolean => 8
  | .structure => length
  | .bigInteger | .textString | .byteString => length + padding length

def skipPadding (buf : Bytes) (length : Nat) : Bytes :=
  if 0 < padding length ∧ padding length ≤ buf.length then buf.drop (padding length) else buf

def getU32 (buf : Bytes) : UInt32 := UInt32.ofNat (beValue (buf.take 4))

def getU64 (buf : Bytes) : UInt64 := UInt64.ofNat (beValue (buf.take 8))

def fromUtf8 (bytes : Bytes) : Except TtlvError String :=
  match String.fromUTF8? bytes.toByteArray with
  | some text => .ok text
  | none => .error .invalidUtf8

def decodeValue (child : Bytes → Except TtlvError (Ttlv × Bytes)) (header : TtlvHeader)
    (buf : Bytes) : Except TtlvError (TtlvValue Ttlv × Bytes) :=
  match header.ttlvType with
  | .structure => do
    -- Every nested item takes bytes, so there are no more of them than there are bytes.
    let items ← readAll child header.length (buf.take header.length)
    return (.structure items, buf.drop header.length)
  | .integer => return (.integer (getU32 buf).toInt32, (buf.drop 4).drop 4)
  | .longInteger => return (.longInteger (getU64 buf).toInt64, buf.drop 8)
  | .bigInteger =>
    return (.bigInteger (buf.take header.length), skipPadding (buf.drop header.length) header.length)
  | .enumeration => return (.enumeration (getU32 buf), (buf.drop 4).drop 4)
  | .boolean => return (.boolean (getU64 buf ≠ 0), buf.drop 8)
  | .textString => do
    let value ← fromUtf8 (buf.take header.length)
    return (.textString value, skipPadding (buf.drop header.length) header.length)
  | .byteString =>
    return (.byteString (buf.take header.length), skipPadding (buf.drop header.length) header.length)
  | .dateTime => return (.dateTime (getU64 buf).toInt64, buf.drop 8)
  | .interval => return (.interval (getU32 buf), (buf.drop 4).drop 4)

def decodeWithin : Nat → Bytes → Except TtlvError (Ttlv × Bytes)
  | 0, _ => .error (.invalidEncoding s!"TTLV nesting depth exceeds maximum of {maxTtlvDepth}")
  | room + 1, buf => do
    let (header, rest) ← readHeader buf
    if rest.length < paddedLength header.ttlvType header.length then
      .error .unexpectedEof
    else
      let (value, rest) ← decodeValue (decodeWithin room) header rest
      return (.mk header.tag value, rest)

def decodeItem (buf : Bytes) (depth : Nat) : Except TtlvError (Ttlv × Bytes) :=
  decodeWithin (maxTtlvDepth - depth) buf

def decode (data : Bytes) : Except TtlvError Ttlv := (decodeItem data 0).map Prod.fst

def decodeFromBytes (buf : Bytes) : Except TtlvError (Ttlv × Bytes) := decodeItem buf 0

end TtlvDecoder

def peekMessageLength (data : Bytes) : Option Nat :=
  if data.length < 8 then none else some (8 + beValue ((data.drop 4).take 4))

@[simp] theorem TtlvType.tryFrom_toByte (ttlvType : TtlvType) :
    TtlvType.tryFrom ttlvType.toByte = .ok ttlvType := by
  cases ttlvType <;> rfl

theorem or_shifted {high middle low : Nat} (middleSmall : middle < 256) (lowSmall : low < 256) :
    high <<< 16 ||| middle <<< 8 ||| low = high * 65536 + middle * 256 + low := by
  -- The lower bytes stay below the bits of the higher ones, so nothing overlaps.
  have inner : middle <<< 8 ||| low = middle <<< 8 + low :=
    (Nat.shiftLeft_add_eq_or_of_lt (by omega) middle).symm
  have bound : middle <<< 8 + low < 2 ^ 16 := by
    rw [Nat.shiftLeft_eq]
    omega
  rw [Nat.or_assoc, inner, ← Nat.shiftLeft_add_eq_or_of_lt bound, Nat.shiftLeft_eq,
    Nat.shiftLeft_eq]
  omega

theorem Tag.bytes_read {tag : Tag} (small : tag.value.toNat < 2 ^ 24) :
    (tag.value >>> 16).toUInt8.toUInt32 <<< 16 ||| (tag.value >>> 8).toUInt8.toUInt32 <<< 8 |||
      tag.value.toUInt8.toUInt32 = tag.value := by
  apply UInt32.toNat_inj.mp
  simp only [UInt32.toNat_or, UInt32.toNat_shiftLeft, UInt8.toNat_toUInt32, UInt32.toNat_toUInt8,
    UInt32.toNat_shiftRight, Nat.shiftRight_eq_div_pow, UInt32.reduceToNat, Nat.reduceMod,
    Nat.reducePow]
  have high : (tag.value.toNat / 65536 % 256) <<< 16 < 4294967296 := by
    rw [Nat.shiftLeft_eq]
    omega
  have middle : (tag.value.toNat / 256 % 256) <<< 8 < 4294967296 := by
    rw [Nat.shiftLeft_eq]
    omega
  rw [Nat.mod_eq_of_lt high, Nat.mod_eq_of_lt middle, or_shifted (by omega) (by omega)]
  omega

namespace TtlvDecoder

theorem readHeader_headerBytes {tag : Tag} {length : Nat} (small : tag.value.toNat < 2 ^ 24)
    (fits : length < 2 ^ 32) (ttlvType : TtlvType) (rest : Bytes) :
    readHeader (headerBytes tag ttlvType length ++ rest) = .ok (⟨tag, ttlvType, length⟩, rest) := by
  have value := beValue_beBytes 4 length
  rw [Nat.mod_eq_of_lt (show length < 256 ^ 4 from fits)] at value
  obtain ⟨l3, l2, l1, l0, bytes⟩ : ∃ l3 l2 l1 l0, beBytes 4 length = [l3, l2, l1, l0] :=
    ⟨_, _, _, _, rfl⟩
  rw [bytes] at value
  simp only [headerBytes, Tag.bytes, putU32, bytes, List.cons_append, List.nil_append, readHeader,
    TtlvType.tryFrom_toByte, Tag.bytes_read small, value, bind, Except.bind, pure, Except.pure]

variable {buf rest : Bytes}

theorem readHeader_ok {header : TtlvHeader} (read : readHeader buf = .ok (header, rest)) :
    buf.length = rest.length + 8 := by
  unfold readHeader at read
  split at read
  · simp only [bind, Except.bind] at read
    split at read
    · cases read
    · cases read
      rfl
  · cases read

theorem skipPadding_drop {length : Nat} (room : length + padding length ≤ buf.length) :
    skipPadding (buf.drop length) length = buf.drop (length + padding length) := by
  unfold skipPadding
  by_cases padded : 0 < padding length
  · rw [if_pos ⟨padded, by rw [List.length_drop]; omega⟩, List.drop_drop]
  · have none : padding length = 0 := by omega
    rw [if_neg (by omega), none, Nat.add_zero]

theorem decodeValue_ok {child : Bytes → Except TtlvError (Ttlv × Bytes)} {header : TtlvHeader}
    {value : TtlvValue Ttlv} (room : paddedLength header.ttlvType header.length ≤ buf.length)
    (decoded : decodeValue child header buf = .ok (value, rest)) :
    rest = buf.drop (paddedLength header.ttlvType header.length) := by
  unfold decodeValue at decoded
  cases kind : header.ttlvType <;>
    simp only [kind, bind, Except.bind, pure, Except.pure, paddedLength] at decoded room ⊢
  case «structure» =>
    split at decoded
    · cases decoded
    · cases decoded
      rfl
  case textString =>
    split at decoded
    · cases decoded
    · cases decoded
      exact skipPadding_drop room
  case bigInteger | byteString =>
    cases decoded
    exact skipPadding_drop room
  case integer | enumeration | interval =>
    cases decoded
    rw [List.drop_drop]
  case longInteger | dateTime | boolean =>
    cases decoded
    rfl

theorem decodeWithin_zero (buf : Bytes) (found : Ttlv × Bytes) :
    decodeWithin 0 buf ≠ .ok found := nofun

theorem decodeWithin_ok {room : Nat} {item : Ttlv}
    (decoded : decodeWithin (room + 1) buf = .ok (item, rest)) :
    ∃ header body value, readHeader buf = .ok (header, body) ∧
      paddedLength header.ttlvType header.length ≤ body.length ∧
      decodeValue (decodeWithin room) header body = .ok (value, rest) ∧
      item = .mk header.tag value := by
  simp only [decodeWithin, bind, Except.bind] at decoded
  split at decoded
  · cases decoded
  · rename_i found read
    obtain ⟨header, body⟩ := found
    simp only at decoded
    split at decoded
    · cases decoded
    · rename_i enough
      split at decoded
      · cases decoded
      · rename_i found valued
        cases decoded
        exact ⟨header, body, found.1, read, by omega, valued, rfl⟩

theorem decodeWithin_rest {room : Nat} {item : Ttlv}
    (decoded : decodeWithin room buf = .ok (item, rest)) :
    ∃ header body, readHeader buf = .ok (header, body) ∧
      paddedLength header.ttlvType header.length ≤ body.length ∧
      rest = body.drop (paddedLength header.ttlvType header.length) := by
  cases room with
  | zero => exact absurd decoded (decodeWithin_zero buf _)
  | succ room =>
    obtain ⟨header, body, value, read, enough, valued, -⟩ := decodeWithin_ok decoded
    exact ⟨header, body, read, enough, decodeValue_ok enough valued⟩

theorem decodeWithin_consumes (room : Nat) : Consumes (decodeWithin room) := by
  intro buf item rest decoded
  obtain ⟨header, body, read, -, rfl⟩ := decodeWithin_rest decoded
  have whole := readHeader_ok read
  rw [List.length_drop]
  omega

end TtlvDecoder

end Hsm
