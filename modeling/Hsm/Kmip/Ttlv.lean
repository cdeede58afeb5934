import Hsm.Lib.Text

/-! Items of tag, type, length and value, and the encoder that writes them. -/

namespace Hsm

/-- A tag of three bytes, the high byte zero. -/
structure Tag where
  value : UInt32
  deriving DecidableEq, Repr

inductive TtlvType where
  | «structure»
  | integer
  | longInteger
  | bigInteger
  | enumeration
  | boolean
  | textString
  | byteString
  | dateTime
  | interval
  deriving DecidableEq, Repr

def TtlvType.toByte : TtlvType → UInt8
  | .structure => 0x01
  | .integer => 0x02
  | .longInteger => 0x03
  | .bigInteger => 0x04
  | .enumeration => 0x05
  | .boolean => 0x06
  | .textString => 0x07
  | .byteString => 0x08
  | .dateTime => 0x09
  | .interval => 0x0A

inductive TtlvValue (item : Type) where
  | «structure» (items : List item)
  | integer (value : Int32)
  | longInteger (value : Int64)
  | bigInteger (value : Bytes)
  | enumeration (value : UInt32)
  | boolean (value : Bool)
  | textString (value : String)
  | byteString (value : Bytes)
  | dateTime (value : Int64)
  | interval (value : UInt32)
  deriving DecidableEq

inductive Ttlv where
  | mk (tag : Tag) (value : TtlvValue Ttlv)

namespace Ttlv

def tag : Ttlv → Tag
  | mk tag _ => tag

def value : Ttlv → TtlvValue Ttlv
  | mk _ value => value

def isStructure : Ttlv → Bool
  | mk _ (.structure _) => true
  | _ => false

end Ttlv

def TtlvValue.ttlvType {item : Type} : TtlvValue item → TtlvType
  | .structure _ => .structure
  | .integer _ => .integer
  | .longInteger _ => .longInteger
  | .bigInteger _ => .bigInteger
  | .enumeration _ => .enumeration
  | .boolean _ => .boolean
  | .textString _ => .textString
  | .byteString _ => .byteString
  | .dateTime _ => .dateTime
  | .interval _ => .interval

/-- The bytes up to an 8-byte boundary. -/
def padding (length : Nat) : Nat := (8 - length % 8) % 8

def padTo8 (length : Nat) : Bytes := List.replicate (padding length) 0

def putU32 (value : Nat) : Bytes := beBytes 4 value

/-- Three big-endian bytes. -/
def Tag.bytes (tag : Tag) : Bytes :=
  [(tag.value >>> 16).toUInt8, (tag.value >>> 8).toUInt8, tag.value.toUInt8]

def headerBytes (tag : Tag) (ttlvType : TtlvType) (length : Nat) : Bytes :=
  tag.bytes ++ ttlvType.toByte :: putU32 length

namespace TtlvEncoder

mutual

def encodeItem : Ttlv → Bytes
  | .mk tag (.structure items) =>
    -- The items are encoded first, to calculate the length; structures are not padded.
    headerBytes tag .structure (encodeItems items).length ++ encodeItems items
  | .mk tag (.integer value) =>
    headerBytes tag .integer 4 ++ (beBytes 4 value.toUInt32.toNat ++ putU32 0)
  | .mk tag (.longInteger value) =>
    headerBytes tag .longInteger 8 ++ beBytes 8 value.toUInt64.toNat
  | .mk tag (.bigInteger value) =>
    headerBytes tag .bigInteger value.length ++ (value ++ padTo8 value.length)
  | .mk tag (.enumeration value) =>
    headerBytes tag .enumeration 4 ++ (beBytes 4 value.toNat ++ putU32 0)
  | .mk tag (.boolean value) =>
    headerBytes tag .boolean 8 ++ beBytes 8 (if value then 1 else 0)
  | .mk tag (.textString value) =>
    headerBytes tag .textString (asBytes value).length ++
      (asBytes value ++ padTo8 (asBytes value).length)
  | .mk tag (.byteString value) =>
    headerBytes tag .byteString value.length ++ (value ++ padTo8 value.length)
  | .mk tag (.dateTime value) =>
    headerBytes tag .dateTime 8 ++ beBytes 8 value.toUInt64.toNat
  | .mk tag (.interval value) =>
    headerBytes tag .interval 4 ++ (beBytes 4 value.toNat ++ putU32 0)

def encodeItems : List Ttlv → Bytes
  | [] => []
  | item :: items => encodeItem item ++ encodeItems items

end

def encode (item : Ttlv) : Bytes := encodeItem item

end TtlvEncoder

def paddedLen (length : Nat) : Nat := length + padding length

mutual

def encodedSize : Ttlv → Nat
  | .mk _ (.structure items) => 8 + encodedSizes items
  | .mk _ (.integer _) => 8 + 8
  | .mk _ (.longInteger _) => 8 + 8
  | .mk _ (.bigInteger value) => 8 + paddedLen value.length
  | .mk _ (.enumeration _) => 8 + 8
  | .mk _ (.boolean _) => 8 + 8
  | .mk _ (.textString value) => 8 + paddedLen (asBytes value).length
  | .mk _ (.byteString value) => 8 + paddedLen value.length
  | .mk _ (.dateTime _) => 8 + 8
  | .mk _ (.interval _) => 8 + 8

def encodedSizes : List Ttlv → Nat
  | [] => 0
  | item :: items => encodedSize item + encodedSizes items

end

@[simp] theorem headerBytes_length (tag : Tag) (ttlvType : TtlvType) (length : Nat) :
    (headerBytes tag ttlvType length).length = 8 := by
  simp [headerBytes, Tag.bytes, putU32]

@[simp] theorem padTo8_length (length : Nat) : (padTo8 length).length = padding length := by
  simp [padTo8]

theorem paddedLen_aligned (length : Nat) : paddedLen length % 8 = 0 := by
  simp only [paddedLen, padding]
  omega

namespace TtlvEncoder

theorem encodeItems_flatMap (items : List Ttlv) : encodeItems items = items.flatMap encodeItem := by
  induction items with
  | nil => rfl
  | cons item items ih => rw [encodeItems, ih, List.flatMap_cons]

mutual

theorem encodeItem_length (item : Ttlv) : (encodeItem item).length = encodedSize item := by
  match item with
  | .mk tag (.structure items) => simp [encodeItem, encodedSize, encodeItems_length items]
  | .mk tag (.integer value) | .mk tag (.longInteger value) | .mk tag (.bigInteger value)
  | .mk tag (.enumeration value) | .mk tag (.boolean value) | .mk tag (.textString value)
  | .mk tag (.byteString value) | .mk tag (.dateTime value) | .mk tag (.interval value) =>
    simp [encodeItem, encodedSize, putU32, paddedLen]

theorem encodeItems_length (items : List Ttlv) : (encodeItems items).length = encodedSizes items := by
  match items with
  | [] => rfl
  | item :: items =>
    rw [encodeItems, List.length_append, encodeItem_length item, encodeItems_length items,
      encodedSizes]

end

mutual

theorem encodedSize_aligned (item : Ttlv) : encodedSize item % 8 = 0 := by
  match item with
  | .mk _ (.structure items) =>
    have inside := encodedSizes_aligned items
    simp only [encodedSize]
    omega
  | .mk _ (.bigInteger value) | .mk _ (.byteString value) =>
    have aligned := paddedLen_aligned value.length
    simp only [encodedSize]
    omega
  | .mk _ (.textString value) =>
    have aligned := paddedLen_aligned (asBytes value).length
    simp only [encodedSize]
    omega
  | .mk _ (.integer _) | .mk _ (.longInteger _) | .mk _ (.enumeration _) | .mk _ (.boolean _)
  | .mk _ (.dateTime _) | .mk _ (.interval _) => simp only [encodedSize]

theorem encodedSizes_aligned (items : List Ttlv) : encodedSizes items % 8 = 0 := by
  match items with
  | [] => rfl
  | item :: items =>
    have first := encodedSize_aligned item
    have others := encodedSizes_aligned items
    simp only [encodedSizes]
    omega

end

theorem encodedSize_pos (item : Ttlv) : 8 ≤ encodedSize item := by
  match item with
  | .mk _ (.structure _) | .mk _ (.bigInteger _) | .mk _ (.byteString _) | .mk _ (.textString _)
  | .mk _ (.integer _) | .mk _ (.longInteger _) | .mk _ (.enumeration _) | .mk _ (.boolean _)
  | .mk _ (.dateTime _) | .mk _ (.interval _) => simp [encodedSize]

end TtlvEncoder

end Hsm
