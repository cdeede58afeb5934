import Hsm.Lib.Bytes

/-! Recursive length prefix encoding, and a strict reader for it. -/

namespace Hsm

def trimmed (width value : Nat) : Bytes := (beBytes width value).dropWhile (· = 0)

theorem leValue_append_zero (bytes : Bytes) : leValue (bytes ++ [0]) = leValue bytes := by
  induction bytes with
  | nil => rfl
  | cons byte rest ih => rw [List.cons_append, leValue, leValue, ih]

theorem beValue_dropWhile (bytes : Bytes) : beValue (bytes.dropWhile (· = 0)) = beValue bytes := by
  induction bytes with
  | nil => rfl
  | cons byte rest ih =>
    rw [List.dropWhile_cons]
    split_ifs with zero
    · rw [ih, of_decide_eq_true zero, beValue, beValue, List.reverse_cons, leValue_append_zero]
    · rfl

theorem head?_dropWhile (bytes : Bytes) : (bytes.dropWhile (· = 0)).head? ≠ some 0 := by
  induction bytes with
  | nil => nofun
  | cons byte rest ih =>
    rw [List.dropWhile_cons]
    split_ifs with zero
    · exact ih
    · intro isZero
      exact zero (decide_eq_true (Option.some.inj isZero))

theorem beValue_trimmed {width value : Nat} (fits : value < 256 ^ width) :
    beValue (trimmed width value) = value := by
  rw [trimmed, beValue_dropWhile, beValue_beBytes, Nat.mod_eq_of_lt fits]

theorem head?_trimmed (width value : Nat) : (trimmed width value).head? ≠ some 0 :=
  head?_dropWhile _

theorem length_trimmed_le (width value : Nat) : (trimmed width value).length ≤ width := by
  have shorter := (List.dropWhile_sublist (l := beBytes width value) (· = 0)).length_le
  rwa [beBytes_length] at shorter

namespace Rlp

def header (offset : UInt8) (length : Nat) : Bytes :=
  if length < 56 then [offset + .ofNat length]
  else (offset + 55 + .ofNat (trimmed 8 length).length) :: trimmed 8 length

def encodeString (bytes : Bytes) : Bytes :=
  if bytes.length = 1 ∧ bytes.all (· < 0x80) then bytes else header 0x80 bytes.length ++ bytes

def encodeList (payload : Bytes) : Bytes := header 0xc0 payload.length ++ payload

def encodeInteger (width value : Nat) : Bytes := encodeString (trimmed width value)

def readPayload (offset : Nat) (first : UInt8) (rest : Bytes) : Option (Bytes × Bytes) :=
  if first.toNat ≤ offset + 55 then
    let length := first.toNat - offset
    if rest.length < length then none else some (rest.take length, rest.drop length)
  else
    let size := first.toNat - (offset + 55)
    let length := beValue (rest.take size)
    let body := rest.drop size
    -- Lengths are minimal too.
    if (rest.take size).head? = some 0 ∨ length < 56 ∨ body.length < length then none
    else some (body.take length, body.drop length)

def readString : Bytes → Option (Bytes × Bytes)
  | [] => none
  | first :: rest =>
    if first < 0x80 then some ([first], rest)
    else if first < 0xc0 then do
      let (bytes, rest) ← readPayload 0x80 first rest
      if bytes.length = 1 ∧ bytes.all (· < 0x80) then none else some (bytes, rest)
    else none

def readList : Bytes → Option (Bytes × Bytes)
  | [] => none
  | first :: rest => if first < 0xc0 then none else readPayload 0xc0 first rest

def readInteger (input : Bytes) : Option (Nat × Bytes) := do
  let (bytes, rest) ← readString input
  if bytes.head? = some 0 then none else some (beValue bytes, rest)

theorem readPayload_header (offset : UInt8) (room : offset.toNat ≤ 0xc0) {payload : Bytes}
    (short : payload.length < 2 ^ 64) (rest : Bytes) :
    ∃ first more, header offset payload.length ++ payload ++ rest = first :: more ∧
      offset.toNat ≤ first.toNat ∧ first.toNat < offset.toNat + 64 ∧
      readPayload offset.toNat first more = some (payload, rest) := by
  unfold header
  split_ifs with small
  · have first : (offset + UInt8.ofNat payload.length).toNat = offset.toNat + payload.length := by
      simp only [UInt8.toNat_add, UInt8.toNat_ofNat']
      omega
    refine ⟨_, _, rfl, by omega, by omega, ?_⟩
    have size : (offset + UInt8.ofNat payload.length).toNat - offset.toNat = payload.length := by
      omega
    simp only [readPayload, size, List.append_eq, List.nil_append]
    rw [if_pos (by omega), if_neg (by simp), List.take_left, List.drop_left]
  · have bytes := length_trimmed_le 8 payload.length
    have value : beValue (trimmed 8 payload.length) = payload.length := beValue_trimmed short
    have some : 0 < (trimmed 8 payload.length).length := by
      refine List.length_pos_iff.mpr fun none => ?_
      rw [none] at value
      exact small (by rw [← value]; decide)
    have first : (offset + 55 + UInt8.ofNat (trimmed 8 payload.length).length).toNat =
        offset.toNat + 55 + (trimmed 8 payload.length).length := by
      simp only [UInt8.toNat_add, UInt8.toNat_ofNat', UInt8.reduceToNat]
      omega
    refine ⟨_, _, rfl, by omega, by omega, ?_⟩
    have size : (offset + 55 + UInt8.ofNat (trimmed 8 payload.length).length).toNat -
        (offset.toNat + 55) = (trimmed 8 payload.length).length := by omega
    simp only [readPayload, size, List.append_eq, List.append_assoc]
    rw [if_neg (by omega), List.take_left, List.drop_left, value, if_neg, List.take_left,
      List.drop_left]
    rintro (zero | tooSmall | tooLong)
    · exact head?_trimmed 8 payload.length zero
    · exact small tooSmall
    · simp only [List.length_append] at tooLong
      omega

theorem readString_encodeString {bytes : Bytes} (short : bytes.length < 2 ^ 64) (rest : Bytes) :
    readString (encodeString bytes ++ rest) = some (bytes, rest) := by
  unfold encodeString
  split_ifs with single
  · obtain ⟨byte, rfl⟩ := List.length_eq_one_iff.mp single.1
    have below : byte < 0x80 := by simpa using single.2
    simp [readString, below]
  · obtain ⟨first, more, split, atLeast, below, isRead⟩ :=
      readPayload_header 0x80 (by decide) short rest
    have notSmall : ¬ first < 0x80 := by
      rw [UInt8.lt_iff_toNat_lt]
      exact Nat.not_lt.mpr atLeast
    have isString : first < 0xc0 := UInt8.lt_iff_toNat_lt.mpr below
    rw [split]
    simp only [readString, if_neg notSmall, if_pos isString]
    rw [show (0x80 : Nat) = (0x80 : UInt8).toNat from rfl, isRead]
    exact if_neg single

theorem readList_encodeList {payload : Bytes} (short : payload.length < 2 ^ 64) (rest : Bytes) :
    readList (encodeList payload ++ rest) = some (payload, rest) := by
  obtain ⟨first, more, split, atLeast, -, isRead⟩ :=
    readPayload_header 0xc0 (by decide) short rest
  have isList : ¬ first < 0xc0 := by
    rw [UInt8.lt_iff_toNat_lt]
    exact Nat.not_lt.mpr atLeast
  rw [encodeList, split]
  simp only [readList, if_neg isList]
  exact isRead

theorem readInteger_encodeInteger {width value : Nat} (narrow : width < 2 ^ 64)
    (fits : value < 256 ^ width) (rest : Bytes) :
    readInteger (encodeInteger width value ++ rest) = some (value, rest) := by
  have short := Nat.lt_of_le_of_lt (length_trimmed_le width value) narrow
  unfold readInteger encodeInteger
  rw [readString_encodeString short]
  simp only [Option.bind_eq_bind, Option.bind_some, if_neg (head?_trimmed width value),
    beValue_trimmed fits]

theorem encodeString_append_inj {first second : Bytes} (short : first.length < 2 ^ 64)
    (otherShort : second.length < 2 ^ 64) {rest rest' : Bytes}
    (same : encodeString first ++ rest = encodeString second ++ rest') :
    first = second ∧ rest = rest' := by
  have isRead := congrArg readString same
  rw [readString_encodeString short, readString_encodeString otherShort] at isRead
  exact Prod.mk.inj (Option.some.inj isRead)

theorem encodeList_append_inj {first second : Bytes} (short : first.length < 2 ^ 64)
    (otherShort : second.length < 2 ^ 64) {rest rest' : Bytes}
    (same : encodeList first ++ rest = encodeList second ++ rest') :
    first = second ∧ rest = rest' := by
  have isRead := congrArg readList same
  rw [readList_encodeList short, readList_encodeList otherShort] at isRead
  exact Prod.mk.inj (Option.some.inj isRead)

end Rlp

end Hsm
