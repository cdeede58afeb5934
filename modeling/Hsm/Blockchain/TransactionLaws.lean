import Hsm.Blockchain.Transaction
import Mathlib.Data.Option.Basic

/-! Strict decoders accept signed transactions, and signing payloads are unambiguous. -/

namespace Hsm.Blockchain

theorem of_rlpWrapList {payload encoded : Bytes} (wrapped : rlpWrapList payload = some encoded) :
    payload.length < 2 ^ 64 ∧ encoded = Rlp.encodeList payload := by
  unfold rlpWrapList at wrapped
  split_ifs at wrapped with fits
  cases wrapped
  exact ⟨by omega, rfl⟩

theorem length_le_encodeString (bytes : Bytes) :
    bytes.length ≤ (Rlp.encodeString bytes).length := by
  unfold Rlp.encodeString
  split_ifs
  · exact Nat.le_refl _
  · rw [List.length_append]
    omega

section

variable (rest : Bytes)

theorem readInteger_encodeU256 (value : U256) :
    Rlp.readInteger (encodeU256 value ++ rest) = some (value.toNat, rest) :=
  Rlp.readInteger_encodeInteger (by decide) value.isLt rest

theorem readInteger_encodeU64 (value : UInt64) :
    Rlp.readInteger (encodeU64 value ++ rest) = some (value.toNat, rest) := by
  have fits : value.toNat < 256 ^ 32 := Nat.lt_of_lt_of_le value.toNat_lt (by decide)
  exact Rlp.readInteger_encodeInteger (by decide) fits rest

theorem readString_vector {n : Nat} (short : n < 2 ^ 64) (bytes : Vector UInt8 n) :
    Rlp.readString (Rlp.encodeString bytes.toList ++ rest) = some (bytes.toList, rest) :=
  Rlp.readString_encodeString (by rwa [Vector.length_toList]) rest

theorem readString_encodeTo (recipient : Option Address) :
    Rlp.readString (encodeTo recipient ++ rest) =
      some ((recipient.map Vector.toList).getD [], rest) := by
  cases recipient with
  | none => exact Rlp.readString_encodeString (by decide) rest
  | some address => exact readString_vector rest (by decide) address

theorem readInteger_vector (bytes : B256) :
    Rlp.readInteger (Rlp.encodeString bytes.toList ++ rest) =
      if bytes[0] = 0 then none else some (beValue bytes.toList, rest) := by
  have first : bytes.toList.head? = some bytes[0] := by
    rw [List.head?_eq_getElem?]
    simp
  rw [Rlp.readInteger, readString_vector rest (by decide)]
  simp only [Option.bind_eq_bind, Option.bind_some, first, Option.some.injEq]

end

/-- What a strict decoder should find. -/
def LegacyTransaction.expected (tx : LegacyTransaction) (v : UInt64) (r s : B256) :
    DecodedTransaction where
  nonce := tx.nonce.toNat
  gasPrice := tx.gasPrice.toNat
  gasLimit := tx.gasLimit.toNat
  recipient := (tx.recipient.map Vector.toList).getD []
  value := tx.value.toNat
  data := tx.data
  v := v.toNat
  r := beValue r.toList
  s := beValue s.toList

theorem LegacyTransaction.data_short {tx : LegacyTransaction} {rest : Bytes}
    (short : (tx.fields ++ rest).length < 2 ^ 64) : tx.data.length < 2 ^ 64 := by
  have notShorter := length_le_encodeString tx.data
  simp only [fields, List.length_append] at short
  omega

theorem decodeSigned_fields (tx : LegacyTransaction) (v : UInt64) {signature : Bytes}
    (short : (tx.fields ++ encodeU64 v ++ signature).length < 2 ^ 64) :
    decodeSigned (Rlp.encodeList (tx.fields ++ encodeU64 v ++ signature)) = (do
      let (r, rest) ← Rlp.readInteger signature
      let (s, rest) ← Rlp.readInteger rest
      guard (rest = [])
      return ⟨tx.nonce.toNat, tx.gasPrice.toNat, tx.gasLimit.toNat,
        (tx.recipient.map Vector.toList).getD [], tx.value.toNat, tx.data, v.toNat, r, s⟩) := by
  have dataShort := LegacyTransaction.data_short (List.append_assoc .. ▸ short)
  have isList := Rlp.readList_encodeList short []
  rw [List.append_nil] at isList
  have recipient : (tx.recipient.map Vector.toList).getD [] = [] ∨
      ((tx.recipient.map Vector.toList).getD []).length = 20 := by
    cases tx.recipient with
    | none => exact .inl rfl
    | some address => exact .inr (by simp)
  rw [decodeSigned, isList]
  simp only [LegacyTransaction.fields, List.append_assoc, readInteger_encodeU64,
    readInteger_encodeU256, readString_encodeTo, Rlp.readString_encodeString dataShort,
    Option.bind_eq_bind, Option.bind_some, recipient, and_true, true_and]

/-- A signed transaction is canonical exactly if its signature has no zeros in front. -/
theorem encode_signed_canonical_iff {tx : LegacyTransaction} {v : UInt64} {r s : B256}
    {encoded : Bytes} (isEncoded : tx.encodeSigned v r s = some encoded) :
    decodeSigned encoded = some (tx.expected v r s) ↔ r[0] ≠ 0 ∧ s[0] ≠ 0 := by
  have last := readInteger_vector [] s
  rw [List.append_nil] at last
  have decoded : decodeSigned encoded = (do
      let (r, rest) ← Rlp.readInteger (Rlp.encodeString r.toList ++ Rlp.encodeString s.toList)
      let (s, rest) ← Rlp.readInteger rest
      guard (rest = [])
      return ⟨tx.nonce.toNat, tx.gasPrice.toNat, tx.gasLimit.toNat,
        (tx.recipient.map Vector.toList).getD [], tx.value.toNat, tx.data, v.toNat, r, s⟩) := by
    rw [LegacyTransaction.encodeSigned, List.append_assoc] at isEncoded
    obtain ⟨short, wrapped⟩ := of_rlpWrapList isEncoded
    rw [wrapped, decodeSigned_fields tx v short]
  rw [decoded, readInteger_vector]
  by_cases zeroR : r[0] = 0
  · simp [zeroR]
  · by_cases zeroS : s[0] = 0
    · simp [zeroR, last, zeroS]
    · simp [zeroR, last, zeroS, LegacyTransaction.expected, guard]

namespace Known

def transfer : LegacyTransaction :=
  ⟨9, 20000000000, 21000, some (Vector.replicate 20 0x35), 1000000000000000000, [], some 1⟩

def signatureHalf (first : UInt8) : B256 := (Vector.replicate 32 0x11).set 0 first

end Known

theorem leading_zero_refused :
    ((Known.transfer.encodeSigned 37 (Known.signatureHalf 0) (Known.signatureHalf 0x22)).bind
      decodeSigned) = none ∧
    (Known.transfer.encodeSigned 37 (Known.signatureHalf 0) (Known.signatureHalf 0x22)).isSome := by
  decide +kernel

theorem encode_signed_canonical_iff_transfer :
    ∃ encoded, Known.transfer.encodeSigned 37 (Known.signatureHalf 0x11)
        (Known.signatureHalf 0x22) = some encoded ∧
      decodeSigned encoded = some (Known.transfer.expected 37 (Known.signatureHalf 0x11)
        (Known.signatureHalf 0x22)) := by
  have produced : (Known.transfer.encodeSigned 37 (Known.signatureHalf 0x11)
      (Known.signatureHalf 0x22)).isSome := by decide +kernel
  obtain ⟨encoded, isEncoded⟩ := Option.isSome_iff_exists.mp produced
  exact ⟨encoded, isEncoded, (encode_signed_canonical_iff isEncoded).mpr (by decide +kernel)⟩

section

variable {rest rest' : Bytes}

theorem encodeU256_append_inj {first second : U256}
    (same : encodeU256 first ++ rest = encodeU256 second ++ rest') :
    first = second ∧ rest = rest' := by
  have isRead := congrArg Rlp.readInteger same
  rw [readInteger_encodeU256, readInteger_encodeU256] at isRead
  obtain ⟨value, sameRest⟩ := Prod.mk.inj (Option.some.inj isRead)
  exact ⟨BitVec.eq_of_toNat_eq value, sameRest⟩

theorem encodeU64_append_inj {first second : UInt64}
    (same : encodeU64 first ++ rest = encodeU64 second ++ rest') :
    first = second ∧ rest = rest' := by
  have isRead := congrArg Rlp.readInteger same
  rw [readInteger_encodeU64, readInteger_encodeU64] at isRead
  obtain ⟨value, sameRest⟩ := Prod.mk.inj (Option.some.inj isRead)
  exact ⟨UInt64.toNat_inj.mp value, sameRest⟩

theorem encodeVector_append_inj {n : Nat} (short : n < 2 ^ 64) {first second : Vector UInt8 n}
    (same : Rlp.encodeString first.toList ++ rest = Rlp.encodeString second.toList ++ rest') :
    first = second ∧ rest = rest' := by
  have isRead := congrArg Rlp.readString same
  rw [readString_vector rest short, readString_vector rest' short] at isRead
  obtain ⟨bytes, sameRest⟩ := Prod.mk.inj (Option.some.inj isRead)
  exact ⟨Vector.toList_inj.mp bytes, sameRest⟩

theorem encodeTo_append_inj {first second : Option Address}
    (same : encodeTo first ++ rest = encodeTo second ++ rest') :
    first = second ∧ rest = rest' := by
  have isRead := congrArg Rlp.readString same
  rw [readString_encodeTo, readString_encodeTo] at isRead
  obtain ⟨bytes, sameRest⟩ := Prod.mk.inj (Option.some.inj isRead)
  refine ⟨?_, sameRest⟩
  cases first with
  | none =>
    cases second with
    | none => rfl
    | some address => simpa using congrArg List.length bytes
  | some address =>
    cases second with
    | none => simpa using congrArg List.length bytes
    | some other => exact congrArg some (Vector.toList_inj.mp bytes)

end

theorem encodeString_ne_nil (bytes : Bytes) : Rlp.encodeString bytes ≠ [] := by
  unfold Rlp.encodeString Rlp.header
  split_ifs with single
  · intro empty
    simp [empty] at single
  · simp
  · simp

theorem encodeList_ne_nil (payload : Bytes) : Rlp.encodeList payload ≠ [] := by
  unfold Rlp.encodeList Rlp.header
  split_ifs <;> simp

theorem flatten_mapM_inj {α : Type} {encode : α → Option Bytes}
    (apart : ∀ {first second : α} {one other rest rest' : Bytes}, encode first = some one →
      encode second = some other → one ++ rest = other ++ rest' → first = second ∧ rest = rest')
    (notEmpty : ∀ {item : α}, encode item ≠ some []) {items others : List α}
    {encoded encoded' : List Bytes} (isEncoded : items.mapM encode = some encoded)
    (isEncoded' : others.mapM encode = some encoded')
    (same : encoded.flatten = encoded'.flatten) : items = others := by
  -- The first items are told apart by their encodings, and then the rest.
  have split : ∀ {item : α} {rest : List α} {all : List Bytes},
      (item :: rest).mapM encode = some all → ∃ one more, encode item = some one ∧
        rest.mapM encode = some more ∧ all = one :: more := by
    intro item rest all isAll
    simp only [List.mapM_cons, Option.pure_def, Option.bind_eq_bind, Option.bind_eq_some_iff,
      Option.some.injEq] at isAll
    obtain ⟨one, isOne, more, isMore, rfl⟩ := isAll
    exact ⟨one, more, isOne, isMore, rfl⟩
  have someBytes : ∀ {item : α} {rest : List α} {all : List Bytes},
      (item :: rest).mapM encode = some all → all.flatten ≠ [] := by
    intro item rest all isAll empty
    obtain ⟨one, more, isOne, -, rfl⟩ := split isAll
    rw [List.flatten_cons, List.append_eq_nil_iff] at empty
    exact notEmpty (empty.1 ▸ isOne)
  induction items generalizing others encoded encoded' with
  | nil =>
    cases isEncoded
    cases others with
    | nil => rfl
    | cons other rest => exact absurd same.symm (someBytes isEncoded')
  | cons item rest ih =>
    cases others with
    | nil =>
      cases isEncoded'
      exact absurd same (someBytes isEncoded)
    | cons other rest' =>
      obtain ⟨one, more, isOne, isMore, rfl⟩ := split isEncoded
      obtain ⟨one', more', isOne', isMore', rfl⟩ := split isEncoded'
      obtain ⟨rfl, sameRest⟩ := apart isOne isOne' same
      rw [ih isMore isMore' sameRest]

theorem storageKeys_inj {keys others : List B256}
    (same : (keys.flatMap fun key => Rlp.encodeString key.toList) =
      others.flatMap fun key => Rlp.encodeString key.toList) : keys = others := by
  induction keys generalizing others with
  | nil =>
    cases others with
    | nil => rfl
    | cons other rest =>
      rw [List.flatMap_cons, List.flatMap_nil] at same
      exact absurd (List.append_eq_nil_iff.mp same.symm).1 (encodeString_ne_nil _)
  | cons key rest ih =>
    cases others with
    | nil =>
      rw [List.flatMap_cons, List.flatMap_nil] at same
      exact absurd (List.append_eq_nil_iff.mp same).1 (encodeString_ne_nil _)
    | cons other rest' =>
      rw [List.flatMap_cons, List.flatMap_cons] at same
      obtain ⟨rfl, sameRest⟩ := encodeVector_append_inj (by decide) same
      rw [ih sameRest]

theorem rlpWrapList_append_inj {first second one other rest rest' : Bytes}
    (isOne : rlpWrapList first = some one) (isOther : rlpWrapList second = some other)
    (same : one ++ rest = other ++ rest') : first = second ∧ rest = rest' := by
  obtain ⟨short, wrapped⟩ := of_rlpWrapList isOne
  obtain ⟨otherShort, otherWrapped⟩ := of_rlpWrapList isOther
  rw [wrapped, otherWrapped] at same
  exact Rlp.encodeList_append_inj short otherShort same

theorem rlpWrapList_inj {first second encoded : Bytes}
    (isFirst : rlpWrapList first = some encoded) (isSecond : rlpWrapList second = some encoded) :
    first = second := by
  have same : encoded ++ [] = encoded ++ [] := rfl
  exact (rlpWrapList_append_inj isFirst isSecond same).1

namespace Eip1559Transaction

theorem encodeEntry_append_inj {first second : Address × List B256}
    {one other rest rest' : Bytes} (isOne : encodeEntry first = some one)
    (isOther : encodeEntry second = some other) (same : one ++ rest = other ++ rest') :
    first = second ∧ rest = rest' := by
  simp only [encodeEntry, Option.bind_eq_bind, Option.bind_eq_some_iff] at isOne isOther
  obtain ⟨keys, isKeys, isOne⟩ := isOne
  obtain ⟨otherKeys, isOtherKeys, isOther⟩ := isOther
  obtain ⟨sameEntry, sameRest⟩ := rlpWrapList_append_inj isOne isOther same
  obtain ⟨sameAddress, sameKeys⟩ := encodeVector_append_inj (by decide) sameEntry
  rw [← sameKeys] at isOtherKeys
  exact ⟨Prod.ext sameAddress (storageKeys_inj (rlpWrapList_inj isKeys isOtherKeys)), sameRest⟩

theorem encodeEntry_ne_nil {entry : Address × List B256} : encodeEntry entry ≠ some [] := by
  intro empty
  simp only [encodeEntry, Option.bind_eq_bind, Option.bind_eq_some_iff] at empty
  obtain ⟨keys, -, wrapped⟩ := empty
  exact encodeList_ne_nil _ (of_rlpWrapList wrapped).2.symm

theorem encodeAccessList_append_inj {first second : List (Address × List B256)}
    {one other rest rest' : Bytes} (isOne : encodeAccessList first = some one)
    (isOther : encodeAccessList second = some other) (same : one ++ rest = other ++ rest') :
    first = second ∧ rest = rest' := by
  simp only [encodeAccessList, Option.bind_eq_bind, Option.bind_eq_some_iff] at isOne isOther
  obtain ⟨entries, areEntries, isOne⟩ := isOne
  obtain ⟨others, areOthers, isOther⟩ := isOther
  obtain ⟨sameEntries, sameRest⟩ := rlpWrapList_append_inj isOne isOther same
  exact ⟨flatten_mapM_inj encodeEntry_append_inj encodeEntry_ne_nil areEntries areOthers
    sameEntries, sameRest⟩

theorem data_short {tx : Eip1559Transaction} {rest : Bytes}
    (short : (tx.fields ++ rest).length < 2 ^ 64) : tx.data.length < 2 ^ 64 := by
  have notShorter := length_le_encodeString tx.data
  simp only [fields, List.length_append] at short
  omega

theorem signingPayload_inj {first second : Eip1559Transaction} {payload : Bytes}
    (isFirst : first.signingPayload = some payload)
    (isSecond : second.signingPayload = some payload) : first = second := by
  simp only [signingPayload, Option.bind_eq_bind, Option.bind_eq_some_iff, Option.pure_def,
    Option.some.injEq] at isFirst isSecond
  obtain ⟨list, isList, body, isBody, rfl⟩ := isFirst
  obtain ⟨otherList, isOtherList, otherBody, isOtherBody, sameBody⟩ := isSecond
  rw [(List.cons.inj sameBody).2] at isOtherBody
  have short := (of_rlpWrapList isBody).1
  have otherShort := (of_rlpWrapList isOtherBody).1
  have sameFields := rlpWrapList_inj isBody isOtherBody
  have dataShort := data_short short
  have otherDataShort := data_short otherShort
  -- Field by field, what is left after each of them is the same.
  simp only [fields, List.append_assoc] at sameFields
  obtain ⟨chainId, left⟩ := encodeU64_append_inj sameFields
  obtain ⟨nonce, left⟩ := encodeU64_append_inj left
  obtain ⟨tip, left⟩ := encodeU256_append_inj left
  obtain ⟨fee, left⟩ := encodeU256_append_inj left
  obtain ⟨gasLimit, left⟩ := encodeU64_append_inj left
  obtain ⟨recipient, left⟩ := encodeTo_append_inj left
  obtain ⟨value, left⟩ := encodeU256_append_inj left
  obtain ⟨data, left⟩ := Rlp.encodeString_append_inj dataShort otherDataShort left
  have sameList : list ++ [] = otherList ++ [] := by rw [left]
  obtain ⟨accessList, -⟩ := encodeAccessList_append_inj isList isOtherList sameList
  cases first
  cases second
  simp_all

end Eip1559Transaction

namespace LegacyTransaction

theorem chainFields_inj {first second : LegacyTransaction}
    (same : first.chainFields = second.chainFields) : first.chainId = second.chainId := by
  unfold chainFields at same
  cases chain : first.chainId with
  | none =>
    cases otherChain : second.chainId with
    | none => rfl
    | some other =>
      simp only [chain, otherChain] at same
      exact absurd (List.append_eq_nil_iff.mp (List.append_eq_nil_iff.mp same.symm).1).1
        (encodeString_ne_nil _)
  | some chainId =>
    cases otherChain : second.chainId with
    | none =>
      simp only [chain, otherChain] at same
      exact absurd (List.append_eq_nil_iff.mp (List.append_eq_nil_iff.mp same).1).1
        (encodeString_ne_nil _)
    | some other =>
      simp only [chain, otherChain, List.append_assoc] at same
      rw [(encodeU64_append_inj same).1]

theorem signingPayload_inj {first second : LegacyTransaction} {payload : Bytes}
    (isFirst : first.signingPayload = some payload)
    (isSecond : second.signingPayload = some payload) : first = second := by
  rw [signingPayload] at isFirst isSecond
  have short := (of_rlpWrapList isFirst).1
  have otherShort := (of_rlpWrapList isSecond).1
  have sameFields := rlpWrapList_inj isFirst isSecond
  have dataShort := data_short short
  have otherDataShort := data_short otherShort
  simp only [fields, List.append_assoc] at sameFields
  obtain ⟨nonce, left⟩ := encodeU64_append_inj sameFields
  obtain ⟨gasPrice, left⟩ := encodeU256_append_inj left
  obtain ⟨gasLimit, left⟩ := encodeU64_append_inj left
  obtain ⟨recipient, left⟩ := encodeTo_append_inj left
  obtain ⟨value, left⟩ := encodeU256_append_inj left
  obtain ⟨data, left⟩ := Rlp.encodeString_append_inj dataShort otherDataShort left
  have chainId := chainFields_inj left
  cases first
  cases second
  simp_all

end LegacyTransaction

/-- A payload of one kind is none of the other. -/
theorem legacy_ne_eip1559 {legacy : LegacyTransaction} {typed : Eip1559Transaction}
    {payload : Bytes} (isLegacy : legacy.signingPayload = some payload) :
    typed.signingPayload ≠ some payload := by
  intro isTyped
  simp only [Eip1559Transaction.signingPayload, Option.bind_eq_bind, Option.bind_eq_some_iff,
    Option.pure_def, Option.some.injEq] at isTyped
  obtain ⟨_, -, body, -, isPayload⟩ := isTyped
  rw [LegacyTransaction.signingPayload] at isLegacy
  obtain ⟨short, wrapped⟩ := of_rlpWrapList isLegacy
  have isList := Rlp.readList_encodeList short []
  rw [List.append_nil, ← wrapped, ← isPayload] at isList
  simp [Rlp.readList] at isList

theorem signing_payload_unambiguous {first second : Transaction} {payload : Bytes}
    (isFirst : first.signingPayload = some payload)
    (isSecond : second.signingPayload = some payload) : first = second := by
  cases first with
  | legacy first =>
    cases second with
    | legacy second =>
      exact congrArg Transaction.legacy (LegacyTransaction.signingPayload_inj isFirst isSecond)
    | eip1559 second => exact absurd isSecond (legacy_ne_eip1559 isFirst)
  | eip1559 first =>
    cases second with
    | legacy second => exact absurd isFirst (legacy_ne_eip1559 isSecond)
    | eip1559 second =>
      exact congrArg Transaction.eip1559 (Eip1559Transaction.signingPayload_inj isFirst isSecond)

theorem signing_payload_unambiguous_transfer :
    ∃ payload, Known.transfer.signingPayload = some payload ∧
      ∀ other : Transaction, other.signingPayload = some payload →
        other = .legacy Known.transfer := by
  have produced : Known.transfer.signingPayload.isSome := by decide +kernel
  obtain ⟨payload, isPayload⟩ := Option.isSome_iff_exists.mp produced
  have isTransfer : (Transaction.legacy Known.transfer).signingPayload = some payload := isPayload
  exact ⟨payload, isPayload, fun other isOther => signing_payload_unambiguous isOther isTransfer⟩

end Hsm.Blockchain
