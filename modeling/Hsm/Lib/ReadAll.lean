import Hsm.Lib.Bytes

/-! Reading one item after the other until a byte string is used up. -/

namespace Hsm

variable {ε α : Type}

/-- Items read until no bytes are left, at most so many. -/
def readAll (read : Bytes → Except ε (α × Bytes)) : Nat → Bytes → Except ε (List α)
  | _, [] => .ok []
  | 0, _ :: _ => .ok []
  | count + 1, first :: others => do
    let (item, rest) ← read (first :: others)
    let items ← readAll read count rest
    return item :: items

/-- Every item takes at least one byte. -/
def Consumes (read : Bytes → Except ε (α × Bytes)) : Prop :=
  ∀ {bytes : Bytes} {item : α} {rest : Bytes},
    read bytes = .ok (item, rest) → rest.length < bytes.length

section

variable {read : Bytes → Except ε (α × Bytes)}

/-- As many items as bytes are never too few. -/
theorem readAll_enough (consumes : Consumes read) {count : Nat} {bytes : Bytes}
    (enough : bytes.length ≤ count) : readAll read count bytes = readAll read bytes.length bytes := by
  -- Every item leaves fewer bytes than there were, and one item less is allowed for them.
  induction count using Nat.strongRecOn generalizing bytes with
  | ind count ih =>
    cases bytes with
    | nil => cases count <;> rfl
    | cons first others =>
      obtain ⟨smaller, rfl⟩ : ∃ smaller, count = smaller + 1 := ⟨count - 1, by
        simp only [List.length_cons] at enough
        omega⟩
      simp only [List.length_cons, readAll]
      cases result : read (first :: others) with
      | error failure => rfl
      | ok found =>
        obtain ⟨item, rest⟩ := found
        have shorter := consumes result
        simp only [List.length_cons] at shorter enough
        have here := ih smaller (by omega) (show rest.length ≤ smaller by omega)
        have there := ih others.length (by omega) (show rest.length ≤ others.length by omega)
        simp only [bind, Except.bind, here, there]

theorem readAll_step (consumes : Consumes read) {bytes : Bytes} (more : bytes ≠ []) :
    readAll read bytes.length bytes = do
      let (item, rest) ← read bytes
      let items ← readAll read rest.length rest
      return item :: items := by
  cases bytes with
  | nil => exact absurd rfl more
  | cons first others =>
    simp only [List.length_cons, readAll]
    cases result : read (first :: others) with
    | error failure => rfl
    | ok found =>
      obtain ⟨item, rest⟩ := found
      have shorter := consumes result
      simp only [List.length_cons] at shorter
      simp only [bind, Except.bind,
        readAll_enough consumes (show rest.length ≤ others.length by omega)]

theorem readAll_flatMap {write : α → Bytes} {items : List α}
    (reads : ∀ item ∈ items, ∀ rest, read (write item ++ rest) = .ok (item, rest))
    (nonempty : ∀ item ∈ items, write item ≠ []) {count : Nat}
    (enough : (items.flatMap write).length ≤ count) :
    readAll read count (items.flatMap write) = .ok items := by
  induction items generalizing count with
  | nil => cases count <;> rfl
  | cons item items ih =>
    obtain ⟨first, others, written⟩ := List.exists_cons_of_ne_nil (nonempty item (by simp))
    -- The item takes at least one byte, so one item less is enough for the others.
    simp only [List.flatMap_cons, written, List.cons_append, List.length_cons,
      List.length_append] at enough
    obtain ⟨smaller, rfl⟩ : ∃ smaller, count = smaller + 1 := ⟨count - 1, by omega⟩
    have head := reads item (by simp) (items.flatMap write)
    have tail := ih (fun item member => reads item (by simp [member]))
      (fun item member => nonempty item (by simp [member]))
      (show (items.flatMap write).length ≤ smaller by omega)
    rw [List.flatMap_cons, written, List.cons_append, readAll]
    rw [written, List.cons_append] at head
    simp only [head, bind, Except.bind, tail]
    rfl

end

end Hsm
