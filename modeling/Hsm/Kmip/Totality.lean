import Hsm.Kmip.DeclaredLength
import Hsm.Kmip.RoundTrip

/-! The decoder with every access to its buffer checked, and that no check fails. -/

namespace Hsm.TtlvDecoder

/-- Why decoding stops. -/
inductive Stop where
  | error (error : TtlvError)
  | pastEnd
  | unfinished
  deriving DecidableEq, Repr

def returned {α : Type} (result : Except TtlvError α) : Except Stop α := result.mapError .error

def getU8 : Bytes → Except Stop (UInt8 × Bytes)
  | [] => .error .pastEnd
  | byte :: rest => .ok (byte, rest)

def copyToBytes (count : Nat) (buf : Bytes) : Except Stop (Bytes × Bytes) :=
  if count ≤ buf.length then .ok (buf.take count, buf.drop count) else .error .pastEnd

def checkedPadding (buf : Bytes) (length : Nat) : Except Stop Bytes :=
  if 0 < padding length ∧ padding length ≤ buf.length then
    (copyToBytes (padding length) buf).map Prod.snd
  else .ok buf

def checkedItems (child : Bytes → Except Stop (Ttlv × Bytes)) :
    Nat → Bytes → Except Stop (List Ttlv)
  | _, [] => .ok []
  | 0, _ :: _ => .error .unfinished
  | count + 1, first :: others => do
    let (item, rest) ← child (first :: others)
    let items ← checkedItems child count rest
    return item :: items

def checkedValue (child : Bytes → Except Stop (Ttlv × Bytes)) (rounds : Nat) (header : TtlvHeader)
    (buf : Bytes) : Except Stop (TtlvValue Ttlv × Bytes) :=
  let eight : Except Stop (UInt64 × Bytes) := do
    let (value, buf) ← copyToBytes 8 buf
    return (getU64 value, buf)
  let four : Except Stop (UInt32 × Bytes) := do
    let (value, buf) ← copyToBytes 4 buf
    let (_, buf) ← copyToBytes 4 buf
    return (getU32 value, buf)
  match header.ttlvType with
  | .structure => do
    let (body, buf) ← copyToBytes header.length buf
    let items ← checkedItems child rounds body
    return (.structure items, buf)
  | .integer => do
    let (value, buf) ← four
    return (.integer value.toInt32, buf)
  | .longInteger => do
    let (value, buf) ← eight
    return (.longInteger value.toInt64, buf)
  | .bigInteger => do
    let (value, buf) ← copyToBytes header.length buf
    return (.bigInteger value, ← checkedPadding buf header.length)
  | .enumeration => do
    let (value, buf) ← four
    return (.enumeration value, buf)
  | .boolean => do
    let (value, buf) ← eight
    return (.boolean (value ≠ 0), buf)
  | .textString => do
    let (bytes, buf) ← copyToBytes header.length buf
    let value ← returned (fromUtf8 bytes)
    return (.textString value, ← checkedPadding buf header.length)
  | .byteString => do
    let (value, buf) ← copyToBytes header.length buf
    return (.byteString value, ← checkedPadding buf header.length)
  | .dateTime => do
    let (value, buf) ← eight
    return (.dateTime value.toInt64, buf)
  | .interval => do
    let (value, buf) ← four
    return (.interval value, buf)

def checkedItem (rounds : Nat) : Nat → Nat → Bytes → Except Stop (Ttlv × Bytes)
  | 0, _, _ => .error .unfinished
  | calls + 1, depth, buf =>
    if maxTtlvDepth ≤ depth then
      .error (.error
        (.invalidEncoding s!"TTLV nesting depth exceeds maximum of {maxTtlvDepth}"))
    else if buf.length < 8 then .error (.error .unexpectedEof)
    else do
      let (high, buf) ← getU8 buf
      let (middle, buf) ← getU8 buf
      let (low, buf) ← getU8 buf
      let (kind, buf) ← getU8 buf
      let ttlvType ← returned (TtlvType.tryFrom kind)
      let (bytes, buf) ← copyToBytes 4 buf
      let header : TtlvHeader :=
        ⟨⟨high.toUInt32 <<< 16 ||| middle.toUInt32 <<< 8 ||| low.toUInt32⟩, ttlvType, beValue bytes⟩
      if buf.length < paddedLength ttlvType header.length then .error (.error .unexpectedEof)
      else
        let (value, buf) ← checkedValue (checkedItem rounds calls (depth + 1)) rounds header buf
        return (.mk header.tag value, buf)

variable {rounds : Nat} {buf : Bytes}

theorem checkedPadding_eq (buf : Bytes) (length : Nat) :
    checkedPadding buf length = .ok (skipPadding buf length) := by
  by_cases padded : 0 < padding length ∧ padding length ≤ buf.length
  · simp [checkedPadding, skipPadding, padded, copyToBytes, Except.map]
  · simp [checkedPadding, skipPadding, padded]

section

variable {child : Bytes → Except Stop (Ttlv × Bytes)}
  {plain : Bytes → Except TtlvError (Ttlv × Bytes)}
  (reads : ∀ bytes : Bytes, bytes.length ≤ rounds → child bytes = returned (plain bytes))
  (consumes : Consumes plain)

include reads consumes

theorem checkedItems_eq {count : Nat} {bytes : Bytes} (enough : bytes.length ≤ count)
    (long : bytes.length ≤ rounds) :
    checkedItems child count bytes = returned (readAll plain count bytes) := by
  induction count generalizing bytes with
  | zero =>
    obtain rfl := List.length_eq_zero_iff.mp (Nat.le_zero.mp enough)
    rfl
  | succ count ih =>
    cases bytes with
    | nil => rfl
    | cons first others =>
      simp only [checkedItems, readAll, reads _ long, bind, Except.bind]
      cases read : plain (first :: others) with
      | error failure => rfl
      | ok found =>
        have shorter := consumes (show plain (first :: others) = .ok (found.1, found.2) from read)
        simp only [returned, Except.mapError, List.length_cons] at ih shorter enough long ⊢
        rw [ih (by omega) (by omega)]
        cases readAll plain count found.2 <;> rfl

theorem checkedValue_eq {header : TtlvHeader}
    (enough : paddedLength header.ttlvType header.length ≤ buf.length)
    (long : buf.length ≤ rounds) :
    checkedValue child rounds header buf = returned (decodeValue plain header buf) := by
  simp only [checkedValue, decodeValue, copyToBytes, checkedPadding_eq]
  cases kind : header.ttlvType <;> simp only [kind, paddedLength] at enough ⊢
  case «structure» =>
    have size : (buf.take header.length).length = header.length := by simp [enough]
    have items := checkedItems_eq reads consumes
      (show (buf.take header.length).length ≤ rounds by omega) (by omega)
    rw [readAll_enough consumes (by omega), size] at items
    simp only [enough, if_true, bind, Except.bind, items]
    cases readAll plain header.length (buf.take header.length) <;> rfl
  case textString =>
    simp only [show header.length ≤ buf.length by omega, if_true, bind, Except.bind]
    cases fromUtf8 (buf.take header.length) <;> rfl
  case bigInteger | byteString =>
    simp only [show header.length ≤ buf.length by omega, if_true, bind, Except.bind]
    rfl
  case integer | enumeration | interval =>
    have second : 4 ≤ (buf.drop 4).length := by
      rw [List.length_drop]
      omega
    have value : getU32 (buf.take 4) = getU32 buf := by
      rw [getU32, getU32, List.take_take, min_self]
    simp only [show 4 ≤ buf.length by omega, second, if_true, bind, Except.bind, value]
    rfl
  case longInteger | dateTime | boolean =>
    have value : getU64 (buf.take 8) = getU64 buf := by
      rw [getU64, getU64, List.take_take, min_self]
    simp only [enough, if_true, bind, Except.bind, value]
    rfl

end

theorem checkedItem_eq {calls depth : Nat} (within : depth ≤ maxTtlvDepth)
    (levels : maxTtlvDepth < depth + calls) (long : buf.length ≤ rounds) :
    checkedItem rounds calls depth buf = returned (decodeItem buf depth) := by
  induction calls generalizing depth buf with
  | zero => omega
  | succ calls ih =>
    by_cases deep : maxTtlvDepth ≤ depth
    · simp only [checkedItem, deep, if_true, decodeItem, Nat.sub_eq_zero_of_le deep]
      rfl
    · have room : maxTtlvDepth - depth = maxTtlvDepth - (depth + 1) + 1 := by omega
      simp only [checkedItem, deep, if_false, decodeItem, room, decodeWithin]
      -- Only with eight bytes there is a header to read.
      rcases buf with _ | ⟨high, _ | ⟨middle, _ | ⟨low, _ | ⟨kind, _ | ⟨l3, _ | ⟨l2, _ | ⟨l1,
        _ | ⟨l0, rest⟩⟩⟩⟩⟩⟩⟩⟩
      iterate 8 rfl
      have size : ¬ (high :: middle :: low :: kind :: l3 :: l2 :: l1 :: l0 :: rest).length < 8 := by
        simp
      have four : 4 ≤ (l3 :: l2 :: l1 :: l0 :: rest).length := by simp
      simp only [size, if_false, getU8, readHeader, copyToBytes, four, if_true, bind, Except.bind]
      cases TtlvType.tryFrom kind with
      | error failure => rfl
      | ok ttlvType =>
        simp only [returned, Except.mapError, pure, Except.pure, List.take_succ_cons,
          List.take_zero, List.drop_succ_cons, List.drop_zero]
        split
        · rfl
        · rename_i enough
          have nested : ∀ bytes : Bytes, bytes.length ≤ rounds →
              checkedItem rounds calls (depth + 1) bytes = returned (decodeItem bytes (depth + 1)) :=
            fun bytes fits => ih (by omega) (by omega) fits
          simp only [decodeItem] at nested
          rw [checkedValue_eq nested (decodeWithin_consumes _) (Nat.le_of_not_lt enough)
            (by simp only [List.length_cons] at long; omega)]
          cases decodeValue (decodeWithin (maxTtlvDepth - (depth + 1))) _ rest <;> rfl

theorem Call.levels_le {data rest : Bytes} {depth : Nat} {item : Ttlv} (call : Call data depth buf)
    (accepted : decodeItem buf depth = .ok (item, rest)) : item.depth ≤ maxTtlvDepth - depth := by
  -- Every item of a structure is accepted by a call at the next depth.
  induction more : maxTtlvDepth - depth generalizing depth buf item rest with
  | zero =>
    have allowed := decodeItem_allowed accepted
    omega
  | succ left ih =>
    obtain ⟨tag, value⟩ := item
    cases value
    case «structure» items =>
      have levels : Ttlv.depths items ≤ left := by
        have children := call.children accepted
        clear accepted
        induction items with
        | nil => exact Nat.zero_le _
        | cons child items below =>
          obtain ⟨inner, others, deeper, read⟩ := children child (by simp)
          exact Nat.max_le.mpr ⟨ih deeper read (by omega),
            below fun other member => children other (by simp [member])⟩
      simp only [Ttlv.depth]
      omega
    all_goals
      simp only [Ttlv.depth]
      omega

theorem Call.depth_le {data : Bytes} {depth : Nat} (call : Call data depth buf) :
    depth ≤ maxTtlvDepth := by
  induction call with
  | message => decide
  | first outer allowed => exact allowed
  | next before accepted more ih => exact ih

/-- Decoding any bytes ends with an item or an error, and never reads past the end. -/
theorem decode_total (data : Bytes) :
    checkedItem data.length (maxTtlvDepth + 1) 0 data = returned (decodeFromBytes data) ∧
      (∀ item, decode data = .ok item → item.depth ≤ maxTtlvDepth) ∧
      ∀ depth buf, Call data depth buf → depth ≤ maxTtlvDepth ∧
        ∀ item rest, decodeItem buf depth = .ok (item, rest) → rest.length < buf.length := by
  refine ⟨checkedItem_eq (by decide) (by decide) (Nat.le_refl _), ?_, ?_⟩
  · intro item decoded
    unfold decode at decoded
    cases accepted : decodeItem data 0 with
    | error failure =>
      rw [accepted] at decoded
      cases decoded
    | ok found =>
      rw [accepted] at decoded
      cases decoded
      exact Call.message.levels_le accepted
  · intro depth buf call
    exact ⟨call.depth_le, fun item rest => decodeWithin_consumes _⟩

theorem decode_total_empty :
    (Ttlv.mk ⟨0x420078⟩ (.structure [])).depth ≤ maxTtlvDepth ∧ 0 ≤ maxTtlvDepth ∧
      ([] : Bytes).length < [0x42, 0, 0x78, 1, 0, 0, 0, 0].length :=
  have total := decode_total [0x42, 0, 0x78, 1, 0, 0, 0, 0]
  ⟨total.2.1 _ rfl, (total.2.2 0 _ .message).1, (total.2.2 0 _ .message).2 _ _ rfl⟩

end Hsm.TtlvDecoder
