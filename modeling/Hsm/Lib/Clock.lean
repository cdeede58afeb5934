import Mathlib.Data.Nat.Notation
import Mathlib.Algebra.Ring.Nat
import Mathlib.Algebra.Ring.Int.Defs

/-! Points in time and spans between them, as far as dates go. -/

namespace Hsm

/-- Nanoseconds since the Unix epoch. -/
abbrev Instant := Int

/-- Nanoseconds, perhaps negative. -/
abbrev Span := Int

def Instant.plus (time : Instant) (span : Span) : Option Instant :=
  if -8334601228800 * 10 ^ 9 ≤ time + span ∧ time + span < 8210266876800 * 10 ^ 9 then
    some (time + span)
  else none

theorem Instant.plus_eq {time result : Instant} {span : Span}
    (given : time.plus span = some result) : result = time + span := by
  unfold Instant.plus at given
  split at given
  · exact (Option.some.inj given).symm
  · cases given

def seconds (count : Int) : Span := count * 10 ^ 9

end Hsm
