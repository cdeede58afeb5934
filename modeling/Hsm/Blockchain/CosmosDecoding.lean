import Hsm.Blockchain.CosmosSigning

/-! The bytes a Cosmos document is signed as are read back by a protobuf decoder. -/

namespace Hsm.Blockchain

def readVarint : Nat → Bytes → Option (Nat × Bytes)
  | 0, _ => none
  | _, [] => none
  | groups + 1, byte :: rest =>
    if byte.toNat < 128 then some (byte.toNat, rest)
    else do
      let (high, rest) ← readVarint groups rest
      return (byte.toNat - 128 + 128 * high, rest)

def readLenDelimited (bytes : Bytes) : Option (Bytes × Bytes) := do
  let (length, rest) ← readVarint 10 bytes
  if length ≤ rest.length then return (rest.take length, rest.drop length) else none

def decodeFields : Nat → SignDoc → Bytes → Option SignDoc
  | _, doc, [] => some doc
  | 0, _, _ :: _ => none
  | fuel + 1, doc, bytes => do
    let (tag, rest) ← readVarint 10 bytes
    match tag with
    | 10 =>
      let (body, rest) ← readLenDelimited rest
      decodeFields fuel { doc with bodyBytes := body } rest
    | 18 =>
      let (authInfo, rest) ← readLenDelimited rest
      decodeFields fuel { doc with authInfoBytes := authInfo } rest
    | 26 =>
      let (text, rest) ← readLenDelimited rest
      let chainId ← String.fromUTF8? text.toByteArray
      decodeFields fuel { doc with chainId } rest
    | 32 =>
      let (value, rest) ← readVarint 10 rest
      decodeFields fuel { doc with accountNumber := .ofNat value } rest
    | _ => none

def SignDoc.decode (bytes : Bytes) : Option SignDoc :=
  decodeFields bytes.length ⟨[], [], "", 0⟩ bytes

def SignDoc.Addressable (doc : SignDoc) : Prop :=
  doc.bodyBytes.length < 2 ^ 64 ∧ doc.authInfoBytes.length < 2 ^ 64 ∧
    (asBytes doc.chainId).length < 2 ^ 64

theorem readVarint_varintGroups (rest : Bytes) {groups value : Nat}
    (fits : value < 128 ^ (groups + 1)) :
    readVarint (groups + 1) (varintGroups (groups + 1) value ++ rest) = some (value, rest) := by
  induction groups generalizing value with
  | zero =>
    have small : value / 128 = 0 := Nat.div_eq_of_lt (by simpa using fits)
    simp [varintGroups, readVarint, small]
    omega
  | succ groups ih =>
    rw [varintGroups]
    split
    · rename_i small
      have byte : (UInt8.ofNat (value % 128)).toNat = value :=
        (UInt8.toNat_ofNat_of_lt' (by simp only [UInt8.size]; omega)).trans (by omega)
      rw [List.singleton_append, readVarint, byte, if_pos (by omega)]
    · have high : value / 128 < 128 ^ (groups + 1) :=
        Nat.div_lt_of_lt_mul (by rwa [Nat.pow_succ'] at fits)
      have byte : (UInt8.ofNat (value % 128 + 128)).toNat = value % 128 + 128 :=
        UInt8.toNat_ofNat_of_lt' (by simp only [UInt8.size]; omega)
      rw [List.cons_append, readVarint, byte, if_neg (by omega), ih high]
      simp
      omega

theorem readVarint_encodeVarint (value : UInt64) (rest : Bytes) :
    readVarint 10 (encodeVarint value ++ rest) = some (value.toNat, rest) :=
  readVarint_varintGroups rest (Nat.lt_of_lt_of_le value.toNat_lt (by decide))

theorem readLenDelimited_encode {data : Bytes} (fits : data.length < 2 ^ 64) (rest : Bytes) :
    readLenDelimited (encodeVarint (.ofNat data.length) ++ (data ++ rest)) = some (data, rest) := by
  rw [readLenDelimited, readVarint_encodeVarint, UInt64.toNat_ofNat_of_lt' fits]
  simp

variable {doc : SignDoc} (fuel : Nat) (rest : Bytes)

theorem decodeFields_body {data : Bytes} (fits : data.length < 2 ^ 64) :
    decodeFields (fuel + 1) doc (encodeLenDelimited 1 data ++ rest) =
      decodeFields fuel { doc with bodyBytes := data } rest := by
  have tag : encodeTag 1 2 = [10] := by decide
  simp [encodeLenDelimited, tag, decodeFields, readVarint, readLenDelimited_encode fits]

theorem decodeFields_authInfo {data : Bytes} (fits : data.length < 2 ^ 64) :
    decodeFields (fuel + 1) doc (encodeLenDelimited 2 data ++ rest) =
      decodeFields fuel { doc with authInfoBytes := data } rest := by
  have tag : encodeTag 2 2 = [18] := by decide
  simp [encodeLenDelimited, tag, decodeFields, readVarint, readLenDelimited_encode fits]

theorem decodeFields_chainId {text : String} (fits : (asBytes text).length < 2 ^ 64) :
    decodeFields (fuel + 1) doc (encodeLenDelimited 3 (asBytes text) ++ rest) =
      decodeFields fuel { doc with chainId := text } rest := by
  have tag : encodeTag 3 2 = [26] := by decide
  simp [encodeLenDelimited, tag, decodeFields, readVarint, readLenDelimited_encode fits,
    fromUTF8?_asBytes]

theorem decodeFields_accountNumber (value : UInt64) :
    decodeFields (fuel + 1) doc (encodeVarintField 4 value ++ rest) =
      decodeFields fuel { doc with accountNumber := value } rest := by
  have tag : encodeTag 4 0 = [32] := by decide
  simp [encodeVarintField, tag, decodeFields, readVarint, readVarint_encodeVarint]

theorem toDirectSignBytes_length (doc : SignDoc) : 4 ≤ doc.toDirectSignBytes.length := by
  have tags : encodeTag 1 2 = [10] ∧ encodeTag 2 2 = [18] ∧ encodeTag 3 2 = [26] := by decide
  have lengths : ∀ value, 1 ≤ (encodeVarint value).length := by
    intro value
    rw [encodeVarint, varintGroups]
    split <;> simp
  have body := lengths (.ofNat doc.bodyBytes.length)
  simp only [SignDoc.toDirectSignBytes, encodeLenDelimited, tags, List.length_append,
    List.length_singleton]
  omega

/-- A document is read back from its sign bytes, so that no other document has the same ones. -/
theorem sign_bytes_unambiguous :
    (∀ doc : SignDoc, doc.Addressable → SignDoc.decode doc.toDirectSignBytes = some doc) ∧
      ∀ first second : SignDoc, first.Addressable → second.Addressable →
        first.toDirectSignBytes = second.toDirectSignBytes → first = second := by
  have recovered : ∀ doc : SignDoc, doc.Addressable →
      SignDoc.decode doc.toDirectSignBytes = some doc := by
    rintro doc ⟨body, authInfo, chainId⟩
    -- Each of the four fields takes one unit of the fuel, which is at least four.
    obtain ⟨fuel, isFuel⟩ := Nat.exists_eq_add_of_le' (toDirectSignBytes_length doc)
    rw [SignDoc.decode, isFuel, SignDoc.toDirectSignBytes, List.append_assoc, List.append_assoc,
      decodeFields_body _ _ body, decodeFields_authInfo _ _ authInfo,
      decodeFields_chainId _ _ chainId]
    split
    · rw [← List.append_nil (encodeVarintField 4 _), decodeFields_accountNumber, decodeFields]
    · rename_i zero
      rw [decodeFields, ← not_not.mp zero]
  refine ⟨recovered, fun first second fits fits' same => ?_⟩
  exact Option.some.inj ((recovered first fits).symm.trans (same ▸ recovered second fits'))

theorem sign_bytes_unambiguous_sample :
    SignDoc.decode (SignDoc.toDirectSignBytes ⟨[1, 2], [3], "cosmoshub-4", 300⟩) =
      some ⟨[1, 2], [3], "cosmoshub-4", 300⟩ :=
  sign_bytes_unambiguous.1 _ ⟨by decide, by decide, by decide +kernel⟩

end Hsm.Blockchain
