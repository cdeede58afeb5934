import Hsm.Lib.Bytes
import Mathlib.Data.List.Forall2

/-! Byte strings read as UTF-8 where that is possible, with a replacement for every other sequence. -/

namespace Hsm

namespace Utf8

/-- A sequence of bytes that is read at once. -/
structure Chunk where
  bytes : Bytes
  valid : Bool
  deriving DecidableEq, Repr

/-- The range of each byte that has to follow a first byte, if any can. -/
def continuations (first : UInt8) : Option (List (UInt8 × UInt8)) :=
  if first < 0x80 then some []
  else if 0xC2 ≤ first ∧ first ≤ 0xDF then some [(0x80, 0xBF)]
  else if 0xE0 ≤ first ∧ first ≤ 0xEF then
    -- Neither overlong encodings nor surrogates are read.
    some [(if first = 0xE0 then 0xA0 else 0x80, if first = 0xED then 0x9F else 0xBF), (0x80, 0xBF)]
  else if 0xF0 ≤ first ∧ first ≤ 0xF4 then
    some [(if first = 0xF0 then 0x90 else 0x80, if first = 0xF4 then 0x8F else 0xBF), (0x80, 0xBF),
      (0x80, 0xBF)]
  else none

/-- As many bytes as fall into the ranges, one for each, and whether all do. -/
def takeRanges : List (UInt8 × UInt8) → Bytes → Bytes × Bool
  | [], _ => ([], true)
  | _ :: _, [] => ([], false)
  | range :: ranges, byte :: rest =>
    if range.1 ≤ byte ∧ byte ≤ range.2 then
      (byte :: (takeRanges ranges rest).1, (takeRanges ranges rest).2)
    else ([], false)

def firstChunk (first : UInt8) (rest : Bytes) : Chunk :=
  match continuations first with
  | none => ⟨[first], false⟩
  | some ranges => ⟨first :: (takeRanges ranges rest).1, (takeRanges ranges rest).2⟩

/-- A chunk has at least one byte, so the number of bytes bounds that of the chunks. -/
def chunksWithin : Nat → Bytes → List Chunk
  | _, [] => []
  | 0, _ => []
  | count + 1, first :: rest =>
    let chunk := firstChunk first rest
    chunk :: chunksWithin count (rest.drop (chunk.bytes.length - 1))

def chunks (bytes : Bytes) : List Chunk := chunksWithin bytes.length bytes

/-- U+FFFD, the replacement character. -/
def replacement : Bytes := [0xEF, 0xBF, 0xBD]

def Chunk.text (chunk : Chunk) : Bytes := if chunk.valid then chunk.bytes else replacement

end Utf8

open Utf8

/-- The text read from bytes, itself as UTF-8. -/
def fromUtf8Lossy (bytes : Bytes) : Bytes := (chunks bytes).flatMap Chunk.text

example : fromUtf8Lossy [0x61, 0xFF] = 0x61 :: replacement ∧
    fromUtf8Lossy [0xFF, 0xFF] = replacement ++ replacement ∧
    fromUtf8Lossy [0xF0, 0x9F, 0x98, 0x62, 0xC3, 0xA9] = replacement ++ [0x62, 0xC3, 0xA9] := by
  decide

namespace Utf8

theorem takeRanges_prefix (ranges : List (UInt8 × UInt8)) (bytes : Bytes) :
    ∃ rest, bytes = (takeRanges ranges bytes).1 ++ rest := by
  induction ranges generalizing bytes with
  | nil => exact ⟨bytes, rfl⟩
  | cons range ranges ih =>
    cases bytes with
    | nil => exact ⟨[], rfl⟩
    | cons byte bytes =>
      obtain ⟨rest, split⟩ := ih bytes
      simp only [takeRanges]
      split_ifs
      · exact ⟨rest, by rw [List.cons_append, ← split]⟩
      · exact ⟨byte :: bytes, rfl⟩

/-- What fills all ranges is read the same before any other bytes. -/
theorem takeRanges_append {ranges : List (UInt8 × UInt8)} {bytes : Bytes}
    (complete : (takeRanges ranges bytes).2 = true) (rest : Bytes) :
    takeRanges ranges ((takeRanges ranges bytes).1 ++ rest) =
      ((takeRanges ranges bytes).1, true) := by
  induction ranges generalizing bytes with
  | nil => rfl
  | cons range ranges ih =>
    cases bytes with
    | nil => cases complete
    | cons byte bytes =>
      simp only [takeRanges] at complete ⊢
      split_ifs at complete ⊢ with inside
      simp only [List.cons_append, takeRanges, if_pos inside, ih complete]

/-- A chunk of one sequence: reading starts with it whatever follows. -/
def Chunk.Whole (chunk : Chunk) : Prop :=
  ∃ first more, chunk.bytes = first :: more ∧ ∀ rest, firstChunk first (more ++ rest) = chunk

theorem firstChunk_whole {first : UInt8} {rest : Bytes} (valid : (firstChunk first rest).valid) :
    (firstChunk first rest).Whole := by
  unfold firstChunk at valid ⊢
  cases ranges : continuations first with
  | none => simp [ranges] at valid
  | some ranges' =>
    simp only [ranges] at valid ⊢
    refine ⟨first, _, rfl, fun others => ?_⟩
    simp only [firstChunk, ranges, takeRanges_append valid, valid]

theorem replacement_whole : (Chunk.mk replacement true).Whole :=
  ⟨0xEF, [0xBF, 0xBD], rfl, fun _ => rfl⟩

theorem chunksWithin_valid (count : Nat) (bytes : Bytes) :
    ∀ chunk ∈ chunksWithin count bytes, chunk.valid = true → chunk.Whole := by
  induction count generalizing bytes with
  | zero => cases bytes <;> simp [chunksWithin]
  | succ count ih =>
    cases bytes with
    | nil => simp [chunksWithin]
    | cons first rest =>
      rw [chunksWithin, List.forall_mem_cons]
      exact ⟨firstChunk_whole, ih _⟩

/-- Whole chunks written one after the other are read back. -/
theorem chunksWithin_flatMap {texts : List Chunk} (whole : ∀ chunk ∈ texts, chunk.Whole)
    {count : Nat} (enough : (texts.flatMap Chunk.bytes).length ≤ count) :
    chunksWithin count (texts.flatMap Chunk.bytes) = texts := by
  induction texts generalizing count with
  | nil => cases count <;> rfl
  | cons chunk texts ih =>
    obtain ⟨first, more, bytes, reads⟩ := whole chunk (by simp)
    simp only [List.flatMap_cons, bytes, List.cons_append, List.length_cons,
      List.length_append] at enough ⊢
    obtain ⟨count, rfl⟩ : ∃ less, count = less + 1 := ⟨count - 1, by omega⟩
    rw [chunksWithin, reads, bytes, List.length_cons, Nat.add_sub_cancel, List.drop_left,
      ih (fun other member => whole other (by simp [member])) (by omega)]

/-- The chunk that a chunk's text is read as. -/
def Chunk.shown (chunk : Chunk) : Chunk := ⟨chunk.text, true⟩

theorem chunks_fromUtf8Lossy (bytes : Bytes) :
    chunks (fromUtf8Lossy bytes) = (chunks bytes).map Chunk.shown := by
  have texts : fromUtf8Lossy bytes = ((chunks bytes).map Chunk.shown).flatMap Chunk.bytes := by
    rw [fromUtf8Lossy, List.flatMap_map]
    rfl
  rw [texts]
  refine chunksWithin_flatMap (fun chunk member => ?_) le_rfl
  obtain ⟨original, among, rfl⟩ := List.mem_map.mp member
  unfold Chunk.shown Chunk.text
  split_ifs with valid
  · have whole := chunksWithin_valid _ _ original among valid
    rwa [← valid]
  · exact replacement_whole

/-- A chunk that is read as a replacement character. -/
def Chunk.Lost (chunk : Chunk) : Prop := chunk.valid = false ∨ chunk.bytes = replacement

instance (chunk : Chunk) : Decidable chunk.Lost := inferInstanceAs (Decidable (_ ∨ _))

/-- Chunk by chunk, the same bytes or a replacement character on both sides. -/
def Alike (first second : Bytes) : Prop :=
  List.Forall₂ (fun chunk other => chunk = other ∨ chunk.Lost ∧ other.Lost) (chunks first)
    (chunks second)

theorem shown_eq_iff (chunk other : Chunk) :
    chunk.shown = other.shown ↔ chunk = other ∨ chunk.Lost ∧ other.Lost := by
  obtain ⟨bytes, valid⟩ := chunk
  obtain ⟨bytes', valid'⟩ := other
  cases valid <;> cases valid' <;>
    simp only [Chunk.shown, Chunk.text, Chunk.Lost, Chunk.mk.injEq, Bool.false_eq_true, if_false,
      if_true, and_true, true_or, false_or, and_false, reduceCtorEq] <;> grind

/-- Bytes are read as the same text exactly if they are alike. -/
theorem fromUtf8Lossy_eq_iff (first second : Bytes) :
    fromUtf8Lossy first = fromUtf8Lossy second ↔ Alike first second := by
  have shown : fromUtf8Lossy first = fromUtf8Lossy second ↔
      (chunks first).map Chunk.shown = (chunks second).map Chunk.shown := by
    constructor
    · intro same
      rw [← chunks_fromUtf8Lossy, ← chunks_fromUtf8Lossy, same]
    · intro same
      have texts := congrArg (List.flatMap Chunk.bytes) same
      rwa [List.flatMap_map, List.flatMap_map] at texts
  rw [shown, Alike, ← List.forall₂_eq_eq_eq, List.forall₂_map_left_iff,
    List.forall₂_map_right_iff]
  simp only [shown_eq_iff]

theorem firstChunk_split (first : UInt8) (rest : Bytes) :
    ∃ more others, (firstChunk first rest).bytes = first :: more ∧ rest = more ++ others := by
  unfold firstChunk
  cases continuations first with
  | none => exact ⟨[], rest, rfl, rfl⟩
  | some ranges =>
    obtain ⟨others, split⟩ := takeRanges_prefix ranges rest
    exact ⟨_, others, rfl, split⟩

theorem chunksWithin_bytes {count : Nat} {bytes : Bytes} (enough : bytes.length ≤ count) :
    (chunksWithin count bytes).flatMap Chunk.bytes = bytes := by
  induction count generalizing bytes with
  | zero =>
    obtain rfl := List.length_eq_zero_iff.mp (Nat.le_zero.mp enough)
    rfl
  | succ count ih =>
    cases bytes with
    | nil => rfl
    | cons first rest =>
      obtain ⟨more, others, read, rfl⟩ := firstChunk_split first rest
      simp only [List.length_cons, List.length_append] at enough
      rw [chunksWithin, List.flatMap_cons, read, List.length_cons, Nat.add_sub_cancel,
        List.drop_left, ih (by omega), List.cons_append]

theorem chunks_injective : Function.Injective chunks := by
  intro first second same
  rw [← chunksWithin_bytes (le_refl first.length), ← chunksWithin_bytes (le_refl second.length)]
  exact congrArg (List.flatMap Chunk.bytes) same

/-- Alike bytes are the same if one side loses nothing, or no chunk is invalid. -/
theorem Alike.eq {first second : Bytes} (alike : Alike first second)
    (kept : (∀ chunk ∈ chunks second, ¬ chunk.Lost) ∨
      ∀ chunk ∈ chunks first ++ chunks second, chunk.valid = true) : first = second := by
  apply chunks_injective
  unfold Alike at alike
  generalize chunks first = chunks₁ at alike kept
  generalize chunks second = chunks₂ at alike kept
  induction alike with
  | nil => rfl
  | cons same rest ih =>
    rename_i chunk other chunks₁ chunks₂
    have later := ih (by
      rcases kept with kept | valid
      · exact .inl fun c member => kept c (by simp [member])
      · exact .inr fun c member => valid c (by simp at member ⊢; tauto))
    suffices here : chunk = other by rw [here, later]
    rcases same with same | ⟨lost, lost'⟩
    · exact same
    · rcases kept with kept | valid
      · exact absurd lost' (kept other (by simp))
      · -- Two valid chunks that are lost are both the replacement character.
        have first := valid chunk (by simp)
        have second := valid other (by simp)
        rw [Chunk.Lost, first] at lost
        rw [Chunk.Lost, second] at lost'
        obtain ⟨bytes, _⟩ := chunk
        obtain ⟨bytes', _⟩ := other
        simp_all

end Utf8

end Hsm
