import Mathlib.Data.Nat.Notation
import Mathlib.Algebra.Ring.Nat
import Mathlib.Algebra.Ring.Int.Defs

/-! Points in time, their calendar form, and their RFC 3339 text. -/

namespace Hsm

/-- A UTC timestamp, since the Unix epoch. -/
structure DateTime where
  seconds : Int
  nanos : Nat
  deriving DecidableEq, Repr

def padded (width value : Nat) : String :=
  let digits := Nat.toDigits 10 value
  String.ofList (List.replicate (width - digits.length) '0' ++ digits)

structure CalendarDay where
  year : Int
  month : Nat
  day : Nat
  deriving DecidableEq, Repr

def CalendarDay.ofDays (days : Int) : CalendarDay :=
  -- Years are counted from March within eras of 400 years, so that leap days come last.
  let shifted := days + 719468
  let era := shifted.fdiv 146097
  let dayOfEra := (shifted - era * 146097).toNat
  let yearOfEra :=
    (dayOfEra - dayOfEra / 1460 + dayOfEra / 36524 - dayOfEra / 146096) / 365
  let dayOfYear := dayOfEra - (365 * yearOfEra + yearOfEra / 4 - yearOfEra / 100)
  let marchMonth := (5 * dayOfYear + 2) / 153
  let month := if marchMonth < 10 then marchMonth + 3 else marchMonth - 9
  { year := yearOfEra + era * 400 + if month ≤ 2 then 1 else 0
    month
    day := dayOfYear - (153 * marchMonth + 2) / 5 + 1 }

def yearText (year : Int) : String :=
  if 0 ≤ year ∧ year ≤ 9999 then padded 4 year.toNat
  else (if year < 0 then "-" else "+") ++ padded 4 year.natAbs

def fractionText (nanos : Nat) : String :=
  if nanos = 0 then ""
  else if nanos % 1000000 = 0 then "." ++ padded 3 (nanos / 1000000)
  else if nanos % 1000 = 0 then "." ++ padded 6 (nanos / 1000)
  else "." ++ padded 9 nanos

namespace DateTime

def text (time : DateTime) (offset : String) : String :=
  let date := CalendarDay.ofDays (time.seconds.fdiv 86400)
  let clock := (time.seconds.fmod 86400).toNat
  -- A leap second is held as a nanosecond count of a billion or more.
  let leap := time.nanos / 1000000000
  yearText date.year ++ "-" ++ padded 2 date.month ++ "-" ++ padded 2 date.day ++ "T" ++
    padded 2 (clock / 3600) ++ ":" ++ padded 2 (clock / 60 % 60) ++ ":" ++
    padded 2 (clock % 60 + leap) ++ fractionText (time.nanos % 1000000000) ++ offset

def toRfc3339 (time : DateTime) : String := time.text "+00:00"

def toIso8601 (time : DateTime) : String := time.text "Z"

example : toRfc3339 ⟨1516991409, 453829000⟩ = "2018-01-26T18:30:09.453829+00:00" := by
  decide +kernel

end DateTime

end Hsm
