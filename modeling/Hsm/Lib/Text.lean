import Hsm.Lib.Bytes
import Mathlib.Data.Fintype.Basic

/-! Text encodings: UTF-8 bytes of a string, hexadecimal byte strings, and decimal integers. -/

namespace Hsm

variable (text : String)

def asBytes : Bytes := text.toByteArray.data.toList

theorem asBytes_ofList (chars : List Char) :
    asBytes (String.ofList chars) = chars.flatMap String.utf8EncodeChar := by
  simp [asBytes, List.utf8Encode]

theorem asBytes_injective : Function.Injective asBytes := by
  -- A string is nothing but its bytes, together with their validity.
  intro first second same
  have arrays : first.toByteArray.data = second.toByteArray.data := Array.toList_inj.mp same
  exact String.toByteArray_inj.mp (ByteArray.ext arrays)

theorem fromUTF8?_asBytes :
    String.fromUTF8? (asBytes text).toByteArray = some text := by
  have bytes : (asBytes text).toByteArray = text.toByteArray := by
    apply ByteArray.ext
    rw [List.data_toByteArray, asBytes, Array.toArray_toList]
  rw [bytes, String.fromUTF8?, dif_pos text.isValidUTF8]
  rfl

theorem utf8EncodeChar_read {c d : Char} {rest rest' : Bytes}
    (same : String.utf8EncodeChar c ++ rest = String.utf8EncodeChar d ++ rest') :
    c = d ∧ rest = rest' := by
  -- The decoder finds the encoded character in front of any other bytes.
  have reads (c : Char) (rest : Bytes) :
      (String.utf8EncodeChar c ++ rest).toByteArray.utf8DecodeChar? 0 = some c := by
    rw [List.toByteArray_append]
    exact ByteArray.utf8DecodeChar?_utf8EncodeChar_append
  have first := reads c rest
  rw [same, reads d rest'] at first
  obtain rfl := Option.some.inj first
  exact ⟨rfl, List.append_cancel_left same⟩

theorem utf8_read {chars others : List Char} {rest rest' : Bytes}
    (same : chars.flatMap String.utf8EncodeChar ++ rest =
      others.flatMap String.utf8EncodeChar ++ rest') :
    (∃ more, others = chars ++ more ∧ rest = more.flatMap String.utf8EncodeChar ++ rest') ∨
      ∃ more, chars = others ++ more ∧ rest' = more.flatMap String.utf8EncodeChar ++ rest := by
  induction chars generalizing others with
  | nil => exact .inl ⟨others, rfl, same⟩
  | cons c chars ih =>
    cases others with
    | nil => exact .inr ⟨c :: chars, rfl, same.symm⟩
    | cons d others =>
      -- The first characters agree, and the rest of the texts is compared in the same way.
      simp only [List.flatMap_cons, List.append_assoc] at same
      obtain ⟨rfl, tails⟩ := utf8EncodeChar_read same
      rcases ih tails with ⟨more, rfl, rests⟩ | ⟨more, rfl, rests⟩
      · exact .inl ⟨more, rfl, rests⟩
      · exact .inr ⟨more, rfl, rests⟩

theorem asBytes_read {first second : List Char} {agree : Prop}
    (read : ∀ rest rest', first ++ rest = second ++ rest' → agree ∧ rest = rest')
    {rest rest' : Bytes}
    (same : asBytes (String.ofList first) ++ rest = asBytes (String.ofList second) ++ rest') :
    agree ∧ rest = rest' := by
  rw [asBytes_ofList, asBytes_ofList] at same
  -- One text goes on where the other ends, but it can only go on with nothing.
  rcases utf8_read same with ⟨more, longer, rests⟩ | ⟨more, longer, rests⟩
  · obtain ⟨agrees, none⟩ := read more [] (by rw [longer, List.append_nil])
    subst none
    exact ⟨agrees, rests⟩
  · obtain ⟨agrees, none⟩ := read [] more (by rw [longer, List.append_nil])
    subst none
    exact ⟨agrees, rests.symm⟩

theorem run_read (inRun : Char → Bool) {run other rest rest' : List Char}
    (all : ∀ c ∈ run, inRun c) (also : ∀ c ∈ other, inRun c)
    (ends : ∀ c ∈ rest.head?, inRun c = false) (ends' : ∀ c ∈ rest'.head?, inRun c = false)
    (same : run ++ rest = other ++ rest') : run = other ∧ rest = rest' := by
  induction run generalizing other with
  | nil =>
    cases other with
    | nil => exact ⟨rfl, same⟩
    | cons c others =>
      -- The other run goes on where this one has ended.
      have stops := ends c (by rw [List.nil_append] at same; rw [same]; rfl)
      rw [also c (by simp)] at stops
      cases stops
  | cons c run ih =>
    cases other with
    | nil =>
      have stops := ends' c (by rw [List.nil_append] at same; rw [← same]; rfl)
      rw [all c (by simp)] at stops
      cases stops
    | cons d others =>
      obtain ⟨rfl, tails⟩ := List.cons.inj same
      obtain ⟨rfl, rests⟩ := ih (fun c member => all c (by simp [member]))
        (fun c member => also c (by simp [member])) tails
      exact ⟨rfl, rests⟩

def stripPrefix (marker text : String) : Option String :=
  if marker.toList.isPrefixOf text.toList then
    some (String.ofList (text.toList.drop marker.toList.length))
  else none

inductive FromHexError where
  | invalidHexCharacter (c : Char) (index : Nat)
  | oddLength
  deriving DecidableEq, Repr

def charDebug (c : Char) : String :=
  match c with
  | '\t' => "'\\t'"
  | '\r' => "'\\r'"
  | '\n' => "'\\n'"
  | '\'' => "'\\''"
  | '\\' => "'\\\\'"
  | '\x00' => "'\\0'"
  | _ =>
    -- Controls, the non-breaking space and the soft hyphen are written by code point.
    if (0x20 ≤ c.toNat && c.toNat < 0x7f) || (0xa0 < c.toNat && c.toNat ≠ 0xad) then
      "'" ++ String.singleton c ++ "'"
    else "'\\u\x7b" ++ String.ofList (Nat.toDigits 16 c.toNat) ++ "\x7d'"

def FromHexError.display : FromHexError → String
  | .invalidHexCharacter c index => "Invalid character " ++ charDebug c ++ " at position " ++ toString index
  | .oddLength => "Odd number of digits"

def hexDigitChar (value : Nat) : Char :=
  if value < 10 then Char.ofNat (48 + value) else Char.ofNat (87 + value)

def hexPair (byte : UInt8) : List Char :=
  [hexDigitChar (byte.toNat / 16), hexDigitChar (byte.toNat % 16)]

variable (bytes : Bytes)

/-- The lower-case hexadecimal form. -/
def hexEncode : String := String.ofList (bytes.flatMap hexPair)

def hexVal (c : UInt8) (index : Nat) : Except FromHexError UInt8 :=
  if 65 ≤ c && c ≤ 70 then .ok (c - 55)
  else if 97 ≤ c && c ≤ 102 then .ok (c - 87)
  else if 48 ≤ c && c ≤ 57 then .ok (c - 48)
  else .error (.invalidHexCharacter (Char.ofNat c.toNat) index)

def hexDecodeFrom (index : Nat) : Bytes → Except FromHexError Bytes
  | high :: low :: rest => do
    let upper ← hexVal high index
    let lower ← hexVal low (index + 1)
    let tail ← hexDecodeFrom (index + 2) rest
    return (upper <<< 4 ||| lower) :: tail
  | _ => .ok []

def hexDecode : Except FromHexError Bytes :=
  if (asBytes text).length % 2 ≠ 0 then .error .oddLength
  else hexDecodeFrom 0 (asBytes text)

def u64ToString (value : UInt64) : String := toString value.toNat

def parseDigit (acc : Nat) (c : Char) : Option Nat :=
  if c.isDigit then
    let next := acc * 10 + (c.toNat - '0'.toNat)
    if next < 2 ^ 64 then some next else none
  else none

def parseU64 : Option UInt64 :=
  let digits := match text.toList with
    | '+' :: rest => rest
    | chars => chars
  if digits.isEmpty then none
  else (digits.foldlM parseDigit 0).map UInt64.ofNat

theorem stripPrefix_append (marker text : String) :
    stripPrefix marker (marker ++ text) = some text := by
  -- Appending strings appends their characters, so the dropped part is exactly the marker.
  simp [stripPrefix, String.toList_append]

theorem hexDigitChar_reads {value : Nat} (small : value < 16) (index : Nat) :
    ∃ byte, String.utf8EncodeChar (hexDigitChar value) = [byte] ∧
      hexVal byte index = .ok (UInt8.ofNat value) := by
  -- Sixteen digits, each tested against the three ranges of the reader.
  rcases value with _ | _ | _ | _ | _ | _ | _ | _ | _ | _ | _ | _ | _ | _ | _ | _ | value
  all_goals first | exact ⟨_, rfl, rfl⟩ | omega

theorem hexHalves (byte : UInt8) :
    (UInt8.ofNat (byte.toNat / 16) <<< 4 ||| UInt8.ofNat (byte.toNat % 16)) = byte := by
  -- The two halves range over sixteen values each, which leaves a finite table to check.
  have table : ∀ high low : Fin 16,
      (UInt8.ofNat high.val <<< 4 ||| UInt8.ofNat low.val) = UInt8.ofNat (16 * high.val + low.val) := by
    decide
  have bound : byte.toNat < 256 := byte.toNat_lt
  have both := table ⟨byte.toNat / 16, by omega⟩ ⟨byte.toNat % 16, by omega⟩
  rw [Nat.div_add_mod byte.toNat 16] at both
  simpa using both

theorem hexDecodeFrom_pairs (index : Nat) :
    hexDecodeFrom index ((bytes.flatMap hexPair).flatMap String.utf8EncodeChar) = .ok bytes := by
  -- Two digits rebuild one byte, and the rest of the text starts two positions later.
  induction bytes generalizing index with
  | nil => rfl
  | cons byte rest ih =>
    have bound : byte.toNat < 256 := byte.toNat_lt
    obtain ⟨high, highText, highRead⟩ := hexDigitChar_reads
      (show byte.toNat / 16 < 16 by omega) index
    obtain ⟨low, lowText, lowRead⟩ := hexDigitChar_reads
      (show byte.toNat % 16 < 16 by omega) (index + 1)
    simp only [List.flatMap_cons, hexPair, highText, lowText, List.cons_append, List.nil_append,
      hexDecodeFrom, highRead, lowRead, ih]
    simp [Bind.bind, Except.bind, Pure.pure, Except.pure, hexHalves]

theorem hexPairs_length :
    ((bytes.flatMap hexPair).flatMap String.utf8EncodeChar).length = 2 * bytes.length := by
  induction bytes with
  | nil => rfl
  | cons byte rest ih =>
    have bound : byte.toNat < 256 := byte.toNat_lt
    obtain ⟨high, highText, -⟩ := hexDigitChar_reads (show byte.toNat / 16 < 16 by omega) 0
    obtain ⟨low, lowText, -⟩ := hexDigitChar_reads (show byte.toNat % 16 < 16 by omega) 0
    simp only [List.flatMap_cons, List.flatMap_append, hexPair, List.flatMap_nil, List.append_nil,
      highText, lowText, List.length_append, List.length_cons, List.length_nil, ih]
    omega

theorem asBytes_hexEncode_length :
    (asBytes (hexEncode bytes)).length = 2 * bytes.length := by
  rw [hexEncode, asBytes_ofList, hexPairs_length]

@[simp] theorem hexDecode_hexEncode : hexDecode (hexEncode bytes) = .ok bytes := by
  -- The form has an even number of bytes, so only the pairwise reading is left.
  have even : ¬ (2 * bytes.length) % 2 ≠ 0 := by omega
  rw [hexDecode, hexEncode, asBytes_ofList, hexPairs_length, if_neg even, hexDecodeFrom_pairs]

theorem hexEncode_injective : Function.Injective hexEncode := by
  intro first second same
  have decoded := congrArg hexDecode same
  simpa using decoded

theorem parseDigits_ok (digits : List Char) (acc : Nat) (allDigits : ∀ c ∈ digits, c.isDigit)
    (bound : Nat.ofDigitChars 10 digits acc < 2 ^ 64) :
    digits.foldlM parseDigit acc = some (Nat.ofDigitChars 10 digits acc) := by
  induction digits generalizing acc with
  | nil => simp
  | cons c rest ih =>
    -- Every partial value is at most the final one, so the overflow test passes at each digit.
    have digit : c.isDigit = true := allDigits c (by simp)
    rw [Nat.ofDigitChars_cons] at bound ⊢
    have grows : ∀ (tail : List Char) (start : Nat), start ≤ Nat.ofDigitChars 10 tail start := by
      intro tail
      induction tail with
      | nil => simp
      | cons head tail ih =>
        intro start
        rw [Nat.ofDigitChars_cons]
        exact Nat.le_trans (by omega) (ih _)
    have small : 10 * acc + (c.toNat - '0'.toNat) < 2 ^ 64 := Nat.lt_of_le_of_lt (grows rest _) bound
    have step : parseDigit acc c = some (10 * acc + (c.toNat - '0'.toNat)) := by
      rw [Nat.mul_comm] at small ⊢
      simp only [parseDigit, digit, if_true, small]
    rw [List.foldlM_cons, step]
    exact ih _ (fun d member => allDigits d (by simp [member])) bound

theorem isDigit_toDigits (value : Nat) : ∀ c ∈ Nat.toDigits 10 value, c.isDigit := fun _ member =>
  Nat.isDigit_of_mem_toDigits (by decide) (by decide) member

@[simp] theorem parseU64_u64ToString (value : UInt64) :
    parseU64 (u64ToString value) = some value := by
  -- The decimal form is a nonempty list of digits, so no sign is stripped from it.
  have chars : (u64ToString value).toList = Nat.toDigits 10 value.toNat := by
    simp [u64ToString]
  have digits := isDigit_toDigits value.toNat
  have unsigned : ∀ rest, Nat.toDigits 10 value.toNat ≠ '+' :: rest := by
    intro rest same
    have plus := digits '+' (by simp [same])
    exact absurd plus (by decide)
  have folded := parseDigits_ok (Nat.toDigits 10 value.toNat) 0 digits
    (by rw [Nat.ofDigitChars_ten_toDigits]; exact value.toNat_lt)
  rw [Nat.ofDigitChars_ten_toDigits] at folded
  simp [parseU64, chars, folded, Nat.toDigits_ne_nil]

end Hsm
