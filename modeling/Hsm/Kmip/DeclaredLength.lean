import Hsm.Kmip.Decoder

/-! What the declared length of an item says about the bytes it takes. -/

namespace Hsm

def TtlvType.fixedLength : TtlvType → Option Nat
  | .integer | .enumeration | .interval => some 4
  | .longInteger | .boolean | .dateTime => some 8
  | .structure | .bigInteger | .textString | .byteString => none

def TtlvType.padded : TtlvType → Bool
  | .integer | .enumeration | .interval | .bigInteger | .textString | .byteString => true
  | .structure | .longInteger | .boolean | .dateTime => false

def TtlvHeader.announced (header : TtlvHeader) : Nat :=
  8 + if header.ttlvType.padded then paddedLen header.length else header.length

def TtlvHeader.SizedAsEncoded (header : TtlvHeader) : Prop :=
  ∀ length ∈ header.ttlvType.fixedLength, header.length = length

namespace TtlvDecoder

/-- The calls of the item decoder, by depth and buffer. -/
inductive Call (data : Bytes) : Nat → Bytes → Prop
  | message : Call data 0 data
  | first {depth : Nat} {buf body : Bytes} {header : TtlvHeader} (outer : Call data depth buf)
      (allowed : depth < maxTtlvDepth) (read : readHeader buf = .ok (header, body))
      (isStructure : header.ttlvType = .structure) (enough : header.length ≤ body.length)
      (more : body.take header.length ≠ []) :
      Call data (depth + 1) (body.take header.length)
  | next {depth : Nat} {buf rest : Bytes} {item : Ttlv} (before : Call data (depth + 1) buf)
      (accepted : decodeItem buf (depth + 1) = .ok (item, rest)) (more : rest ≠ []) :
      Call data (depth + 1) rest

variable {depth : Nat} {items : List Ttlv}

theorem Call.readAll {data : Bytes} {bytes : Bytes}
    (call : bytes ≠ [] → Call data (depth + 1) bytes)
    (read : Hsm.readAll (decodeWithin (maxTtlvDepth - (depth + 1))) bytes.length bytes = .ok items)
    :
    ∀ child ∈ items, ∃ buf rest, Call data (depth + 1) buf ∧
      decodeItem buf (depth + 1) = .ok (child, rest) := by
  induction items generalizing bytes with
  | nil => exact fun _ member => nomatch member
  | cons item items ih =>
    by_cases more : bytes = []
    · subst more
      cases read
    · -- The loop makes one call and goes on with what the call has left.
      rw [readAll_step (decodeWithin_consumes _) more] at read
      simp only [bind, Except.bind] at read
      split at read
      · cases read
      · rename_i found accepted
        split at read
        · cases read
        · rename_i others later
          cases read
          have later := ih (fun more' => (call more).next accepted more') later
          intro child member
          rcases List.mem_cons.mp member with rfl | member
          · exact ⟨bytes, found.2, call more, accepted⟩
          · exact later child member

variable {buf : Bytes}

theorem decodeItem_allowed {found : Ttlv × Bytes} (accepted : decodeItem buf depth = .ok found) :
    depth < maxTtlvDepth := by
  by_contra deep
  have room : maxTtlvDepth - depth = 0 := by omega
  rw [decodeItem, room] at accepted
  exact decodeWithin_zero buf _ accepted

variable {header : TtlvHeader} {body rest : Bytes}

theorem decodeValue_structure {child : Bytes → Except TtlvError (Ttlv × Bytes)}
    (decoded : decodeValue child header body = .ok (.structure items, rest)) :
    header.ttlvType = .structure ∧
      Hsm.readAll child header.length (body.take header.length) = .ok items := by
  unfold decodeValue at decoded
  cases kind : header.ttlvType <;>
    simp only [kind, bind, Except.bind, pure, Except.pure] at decoded
  case «structure» =>
    split at decoded
    · cases decoded
    · rename_i read
      cases decoded
      exact ⟨rfl, read⟩
  case textString => split at decoded <;> cases decoded
  all_goals cases decoded

theorem Call.children {data : Bytes} {tag : Tag} (call : Call data depth buf)
    (accepted : decodeItem buf depth = .ok (.mk tag (.structure items), rest)) :
    ∀ child ∈ items, ∃ buf rest, Call data (depth + 1) buf ∧
      decodeItem buf (depth + 1) = .ok (child, rest) := by
  have allowed := decodeItem_allowed accepted
  have levels : maxTtlvDepth - depth = maxTtlvDepth - (depth + 1) + 1 := by omega
  rw [decodeItem, levels] at accepted
  obtain ⟨header, body, value, read, enough, valued, same⟩ := decodeWithin_ok accepted
  cases same
  obtain ⟨isStructure, inside⟩ := decodeValue_structure valued
  rw [isStructure] at enough
  have length : (body.take header.length).length = header.length := List.length_take_of_le enough
  apply Call.readAll (fun more => call.first allowed read isStructure enough more)
  rw [length]
  exact inside

def HonoursLength (buf rest : Bytes) : Prop :=
  ∀ header body, readHeader buf = .ok (header, body) →
    buf.length = rest.length + header.announced ∧ header.SizedAsEncoded

theorem announced_of_sized (sized : header.SizedAsEncoded) :
    header.announced = 8 + paddedLength header.ttlvType header.length := by
  obtain ⟨tag, ttlvType, length⟩ := header
  cases ttlvType <;>
    simp_all [TtlvHeader.SizedAsEncoded, TtlvType.fixedLength, TtlvHeader.announced,
      TtlvType.padded, paddedLength, paddedLen, padding]

theorem paddedLength_fixed {ttlvType : TtlvType} {fixed : Nat}
    (isFixed : ttlvType.fixedLength = some fixed) (length : Nat) :
    paddedLength ttlvType length = 8 := by
  cases ttlvType <;> first | rfl | cases isFixed

theorem decodeItem_fixed {fixed : Nat} (allowed : depth < maxTtlvDepth)
    (read : readHeader buf = .ok (header, body))
    (isFixed : header.ttlvType.fixedLength = some fixed) (enough : 8 ≤ body.length) :
    ∃ item rest, decodeItem buf depth = .ok (item, rest) := by
  obtain ⟨room, levels⟩ : ∃ room, maxTtlvDepth - depth = room + 1 :=
    ⟨maxTtlvDepth - depth - 1, by omega⟩
  have fits : ¬ body.length < paddedLength header.ttlvType header.length := by
    rw [paddedLength_fixed isFixed]
    omega
  -- None of the six branches looks at the declared length.
  have valued : ∃ value rest, decodeValue (decodeWithin room) header body = .ok (value, rest) := by
    unfold decodeValue
    cases kind : header.ttlvType <;> rw [kind] at isFixed <;>
      first | exact ⟨_, _, rfl⟩ | cases isFixed
  obtain ⟨value, rest, valued⟩ := valued
  refine ⟨.mk header.tag value, rest, ?_⟩
  simp only [decodeItem, levels, decodeWithin, read, bind, Except.bind, fits, if_false, valued, pure,
    Except.pure]

theorem honoursLength_iff {item : Ttlv} (accepted : decodeItem buf depth = .ok (item, rest))
    (read : readHeader buf = .ok (header, body)) :
    HonoursLength buf rest ↔ header.SizedAsEncoded := by
  constructor
  · intro honours
    exact (honours header body read).2
  · intro sized found behind again
    rw [read] at again
    cases again
    obtain ⟨header', body', read', enough, rfl⟩ := decodeWithin_rest accepted
    rw [read] at read'
    cases read'
    -- The item took its header and the padded length, which is what the header announces.
    have whole := readHeader_ok read
    have left := announced_of_sized sized
    refine ⟨?_, sized⟩
    rw [List.length_drop]
    omega

/-- Declared lengths are honoured exactly if values of fixed size declare theirs. -/
theorem decoder_honours_length_iff (data : Bytes) :
    (∀ depth buf item rest, Call data depth buf → decodeItem buf depth = .ok (item, rest) →
        HonoursLength buf rest) ↔
      ∀ depth buf header body, Call data depth buf → depth < maxTtlvDepth →
        readHeader buf = .ok (header, body) → 8 ≤ body.length → header.SizedAsEncoded := by
  constructor
  · intro honours depth buf header body call allowed read enough length isFixed
    obtain ⟨item, rest, accepted⟩ := decodeItem_fixed allowed read isFixed enough
    have sized := (honoursLength_iff accepted read).mp (honours depth buf item rest call accepted)
    exact sized length isFixed
  · intro sized depth buf item rest call accepted
    have allowed := decodeItem_allowed accepted
    obtain ⟨header, body, read, enough, -⟩ := decodeWithin_rest accepted
    apply (honoursLength_iff accepted read).mpr
    -- Types of fixed size have their eight bytes, and the others declare what they take.
    intro length isFixed
    rw [paddedLength_fixed isFixed] at enough
    exact sized depth buf header body call allowed read enough length isFixed

namespace Sample

def emptyInteger : Bytes :=
  [0x42, 0x00, 0x6A, 0x02, 0x00, 0x00, 0x00, 0x00, 0x00, 0x00, 0x00, 0x01, 0x00, 0x00, 0x00, 0x00]

end Sample

theorem empty_integer_accepted :
    decode Sample.emptyInteger = .ok (.mk ⟨0x42006A⟩ (.integer 1)) ∧
      ∃ depth buf item rest, Call Sample.emptyInteger depth buf ∧
        decodeItem buf depth = .ok (item, rest) ∧ ¬ HonoursLength buf rest := by
  have accepted : decodeItem Sample.emptyInteger 0 = .ok (.mk ⟨0x42006A⟩ (.integer 1), []) := rfl
  have header : readHeader Sample.emptyInteger =
      .ok (⟨⟨0x42006A⟩, .integer, 0⟩, [0, 0, 0, 1, 0, 0, 0, 0]) := rfl
  refine ⟨rfl, 0, _, _, [], .message, accepted, ?_⟩
  intro honours
  exact absurd (honours _ _ header).1 (by decide)

end TtlvDecoder

end Hsm
