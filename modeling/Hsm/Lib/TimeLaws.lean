import Hsm.Lib.Text
import Hsm.Lib.Time
import Mathlib.Tactic.IntervalCases

/-! Reading RFC 3339 text: a timestamp is found again in front of whatever follows it. -/

namespace Hsm

theorem isDigit_of_mem_padded {width value : Nat} {c : Char}
    (member : c ∈ (padded width value).toList) : c.isDigit := by
  simp only [padded, String.toList_ofList, List.mem_append, List.mem_replicate] at member
  rcases member with ⟨-, rfl⟩ | member
  · decide
  · exact Nat.isDigit_of_mem_toDigits (by decide) (by decide) member

theorem value_padded (width value : Nat) :
    Nat.ofDigitChars 10 (padded width value).toList 0 = value := by
  -- Leading zeros add nothing to the value.
  simp [padded, Nat.ofDigitChars_append]

theorem length_padded {width value : Nat} (positive : 0 < width) (fits : value < 10 ^ width) :
    (padded width value).toList.length = width := by
  have short := (Nat.length_toDigits_le_iff (by decide) positive).mpr fits
  simp only [padded, String.toList_ofList, List.length_append, List.length_replicate]
  omega

theorem padded_read {width width' value value' : Nat} {rest rest' : List Char}
    (ends : ∀ c ∈ rest.head?, c.isDigit = false) (ends' : ∀ c ∈ rest'.head?, c.isDigit = false)
    (same : (padded width value).toList ++ rest = (padded width' value').toList ++ rest') :
    (padded width value).toList = (padded width' value').toList ∧ value = value' ∧
      rest = rest' := by
  obtain ⟨digits, rests⟩ := run_read Char.isDigit (fun _ => isDigit_of_mem_padded)
    (fun _ => isDigit_of_mem_padded) ends ends' same
  have values := congrArg (Nat.ofDigitChars 10 · 0) digits
  simp only [value_padded] at values
  exact ⟨digits, values, rests⟩

namespace CalendarDay

theorem yearOfEra_bounds {dayOfEra yearOfEra : Nat} (inEra : dayOfEra < 146097)
    (computed : yearOfEra =
      (dayOfEra - dayOfEra / 1460 + dayOfEra / 36524 - dayOfEra / 146096) / 365) :
    yearOfEra < 400 ∧ 365 * yearOfEra + yearOfEra / 4 - yearOfEra / 100 ≤ dayOfEra ∧
      dayOfEra - (365 * yearOfEra + yearOfEra / 4 - yearOfEra / 100) < 367 := by
  -- Within one century the leap days are counted by the four-year cycles alone.
  have centuries : dayOfEra / 36524 ≤ 4 := by omega
  have century : yearOfEra / 100 + dayOfEra / 146096 = dayOfEra / 36524 := by
    generalize counted : dayOfEra / 36524 = count at *
    interval_cases count <;> omega
  have cycles : yearOfEra / 4 ≤ dayOfEra / 1460 := by
    generalize counted : dayOfEra / 36524 = count at *
    interval_cases count <;> omega
  have cyclesAbove : dayOfEra / 1460 ≤ yearOfEra / 4 + 2 := by omega
  refine ⟨by omega, by omega, by omega⟩

def toDays (date : CalendarDay) : Int :=
  let year := if date.month ≤ 2 then date.year - 1 else date.year
  let era := year / 400
  let yearOfEra := year % 400
  let marchMonth := if date.month ≤ 2 then date.month + 9 else date.month - 3
  let dayOfYear := (153 * marchMonth + 2) / 5 + (date.day - 1)
  era * 146097 + (365 * yearOfEra + yearOfEra / 4 - yearOfEra / 100 + dayOfYear) - 719468

theorem toDays_ofDays (days : Int) : (ofDays days).toDays = days := by
  simp only [ofDays, Int.fdiv_eq_ediv_of_nonneg _ (show (0 : Int) ≤ 146097 by decide)]
  generalize day : (days + 719468 - (days + 719468) / 146097 * 146097).toNat = dayOfEra
  generalize computed :
    (dayOfEra - dayOfEra / 1460 + dayOfEra / 36524 - dayOfEra / 146096) / 365 = yearOfEra
  obtain ⟨inEra, starts, ends⟩ := yearOfEra_bounds (by omega) computed.symm
  generalize ofYear : dayOfEra - (365 * yearOfEra + yearOfEra / 4 - yearOfEra / 100) = dayOfYear
  rw [ofYear] at ends
  generalize month : (5 * dayOfYear + 2) / 153 = marchMonth
  have months : marchMonth < 12 := by omega
  generalize eras : (days + 719468) / 146097 = era at day ⊢
  simp only [toDays]
  have dayOfMonth : (153 * marchMonth + 2) / 5 ≤ dayOfYear := by omega
  -- The months before March belong to the year before, and both halves are undone separately.
  by_cases early : marchMonth < 10
  · have late : ¬ marchMonth + 3 ≤ 2 := by omega
    simp only [early, late, if_true, if_false]
    have year : ((yearOfEra : Int) + era * 400 + 0) / 400 = era := by omega
    have yearIn : ((yearOfEra : Int) + era * 400 + 0) % 400 = yearOfEra := by omega
    rw [year, yearIn]
    omega
  · have late : marchMonth - 9 ≤ 2 := by omega
    simp only [early, late, if_true, if_false]
    have year : ((yearOfEra : Int) + era * 400 + 1 - 1) / 400 = era := by omega
    have yearIn : ((yearOfEra : Int) + era * 400 + 1 - 1) % 400 = yearOfEra := by omega
    rw [year, yearIn]
    omega

theorem ofDays_injective : Function.Injective ofDays := by
  intro days other same
  have back := congrArg toDays same
  rwa [toDays_ofDays, toDays_ofDays] at back

end CalendarDay

def yearSign (year : Int) : List Char :=
  if 0 ≤ year ∧ year ≤ 9999 then [] else if year < 0 then ['-'] else ['+']

theorem yearText_toList (year : Int) :
    (yearText year).toList = yearSign year ++ (padded 4 year.natAbs).toList := by
  by_cases plain : 0 ≤ year ∧ year ≤ 9999
  · have value : year.toNat = year.natAbs := by omega
    simp [yearText, yearSign, plain, value]
  · by_cases negative : year < 0 <;> simp [yearText, yearSign, plain, negative]

theorem padded_head {width value : Nat} (rest : List Char) :
    ∀ c ∈ ((padded width value).toList ++ rest).head?, (!c.isDigit) = false := by
  have nonempty : (padded width value).toList ≠ [] := by simp [padded, Nat.toDigits_ne_nil]
  cases digits : (padded width value).toList with
  | nil => exact absurd digits nonempty
  | cons first digitsRest =>
    intro c member
    obtain rfl := Option.some.inj member
    have digit := isDigit_of_mem_padded (show first ∈ (padded width value).toList by simp [digits])
    simp [digit]

theorem yearText_read {year year' : Int} {rest rest' : List Char}
    (same : (yearText year).toList ++ '-' :: rest = (yearText year').toList ++ '-' :: rest') :
    year = year' ∧ rest = rest' := by
  rw [yearText_toList, yearText_toList, List.append_assoc, List.append_assoc] at same
  have signs (year : Int) : ∀ c ∈ yearSign year, (!c.isDigit) = true := by
    intro c member
    simp only [yearSign] at member
    split at member
    · cases member
    · split at member <;> (obtain rfl := List.mem_singleton.mp member; rfl)
  obtain ⟨signed, tails⟩ := run_read (fun c => !c.isDigit) (signs year) (signs year')
    (padded_head _) (padded_head _) same
  obtain ⟨-, values, rests⟩ := padded_read (by simp) (by simp) tails
  refine ⟨?_, (List.cons.inj rests).2⟩
  simp only [yearSign] at signed
  split at signed <;> split at signed <;> (try split at signed) <;> (try split at signed) <;>
    first | omega | simp at signed

theorem fractionText_toList (nanos : Nat) :
    (fractionText nanos).toList = [] ∧ nanos = 0 ∨
      ∃ width value, (fractionText nanos).toList = '.' :: (padded width value).toList ∧
        nanos = value * 10 ^ (9 - width) ∧ (width = 3 ∨ width = 6 ∨ width = 9) := by
  by_cases whole : nanos = 0
  · exact .inl ⟨by simp [fractionText, whole], whole⟩
  · refine .inr ?_
    by_cases millis : nanos % 1000000 = 0
    · exact ⟨3, nanos / 1000000, by simp [fractionText, whole, millis], by omega, .inl rfl⟩
    · by_cases micros : nanos % 1000 = 0
      · exact ⟨6, nanos / 1000, by simp [fractionText, whole, millis, micros], by omega,
          .inr (.inl rfl)⟩
      · exact ⟨9, nanos, by simp [fractionText, whole, millis, micros], by omega,
          .inr (.inr rfl)⟩

theorem fractionText_head (nanos : Nat) (rest : List Char) :
    ∀ c ∈ ((fractionText nanos).toList ++ '+' :: rest).head?, c.isDigit = false := by
  rcases fractionText_toList nanos with ⟨text, -⟩ | ⟨width, value, text, -⟩ <;> simp [text]

theorem fractionText_read {nanos nanos' : Nat} (small : nanos < 1000000000)
    (small' : nanos' < 1000000000) {rest rest' : List Char}
    (same : (fractionText nanos).toList ++ '+' :: rest =
      (fractionText nanos').toList ++ '+' :: rest') :
    nanos = nanos' ∧ rest = rest' := by
  rcases fractionText_toList nanos with ⟨text, none⟩ | ⟨width, value, text, scale, widths⟩ <;>
  rcases fractionText_toList nanos' with
    ⟨text', none'⟩ | ⟨width', value', text', scale', widths'⟩ <;>
  rw [text, text'] at same
  · exact ⟨none.trans none'.symm, (List.cons.inj same).2⟩
  · exact absurd (List.cons.inj same).1 (by decide)
  · exact absurd (List.cons.inj same).1 (by decide)
  · -- As many digits stand for as many decimal places.
    obtain ⟨digits, rfl, rests⟩ := padded_read (by simp) (by simp) (List.cons.inj same).2
    have lengths := congrArg List.length digits
    have fits : value < 10 ^ width := by
      rcases widths with rfl | rfl | rfl <;> omega
    have fits' : value < 10 ^ width' := by
      rcases widths' with rfl | rfl | rfl <;> omega
    rw [length_padded (by omega) fits, length_padded (by omega) fits'] at lengths
    subst lengths
    exact ⟨scale.trans scale'.symm, (List.cons.inj rests).2⟩

namespace DateTime

/-- A billion nanoseconds or more are a leap second. -/
def Valid (time : DateTime) : Prop :=
  time.nanos < 1000000000 ∨ time.nanos < 2000000000 ∧ time.seconds % 60 = 59

theorem toRfc3339_read {time other : DateTime} (valid : time.Valid) (also : other.Valid)
    {rest rest' : List Char} (same : time.toRfc3339.toList ++ rest = other.toRfc3339.toList ++ rest') :
    time = other ∧ rest = rest' := by
  have offset : "+00:00".toList = ['+', '0', '0', ':', '0', '0'] := rfl
  have dash : "-".toList = ['-'] := rfl
  have colon : ":".toList = [':'] := rfl
  have letter : "T".toList = ['T'] := rfl
  simp only [toRfc3339, text, String.toList_append, offset, dash, colon, letter, List.append_assoc,
    List.cons_append, List.nil_append] at same
  obtain ⟨years, same⟩ := yearText_read same
  obtain ⟨-, months, same⟩ := padded_read (by simp) (by simp) same
  obtain ⟨-, days, same⟩ := padded_read (by simp) (by simp) (List.cons.inj same).2
  obtain ⟨-, hours, same⟩ := padded_read (by simp) (by simp) (List.cons.inj same).2
  obtain ⟨-, minutes, same⟩ := padded_read (by simp) (by simp) (List.cons.inj same).2
  obtain ⟨-, seconds, same⟩ := padded_read (fractionText_head _ _) (fractionText_head _ _)
    (List.cons.inj same).2
  obtain ⟨fractions, same⟩ := fractionText_read (by omega) (by omega) same
  -- The calendar day and the clock determine the seconds since the epoch.
  have date : CalendarDay.ofDays (time.seconds.fdiv 86400) =
      CalendarDay.ofDays (other.seconds.fdiv 86400) := by
    rw [CalendarDay.mk.injEq]
    exact ⟨years, months, days⟩
  have dates := CalendarDay.ofDays_injective date
  simp only [Int.fdiv_eq_ediv_of_nonneg _ (show (0 : Int) ≤ 86400 by decide),
    Int.fmod_eq_emod_of_nonneg _ (show (0 : Int) ≤ 86400 by decide)] at dates hours minutes seconds
  have clocks : time.seconds = other.seconds ∧ time.nanos = other.nanos := by
    rcases valid with valid | valid <;> rcases also with also | also <;> omega
  refine ⟨?_, by simpa using same⟩
  rw [DateTime.mk.injEq]
  exact clocks

theorem asBytes_toRfc3339_read {time other : DateTime} (valid : time.Valid) (also : other.Valid)
    {rest rest' : Bytes}
    (same : asBytes time.toRfc3339 ++ rest = asBytes other.toRfc3339 ++ rest') :
    time = other ∧ rest = rest' := by
  rw [← String.ofList_toList (s := time.toRfc3339), ← String.ofList_toList (s := other.toRfc3339)]
    at same
  exact asBytes_read (fun _ _ same => toRfc3339_read valid also same) same

end DateTime

end Hsm
