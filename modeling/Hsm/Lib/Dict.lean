import Std.Data.ExtTreeMap
import Mathlib.Data.Option.Basic
import Mathlib.Algebra.Ring.Nat

/-! Finite maps that answer lookups by key, with the laws of their operations up to equality of keys. -/

namespace Hsm

abbrev Dict (κ ν : Type) [Ord κ] := Std.ExtTreeMap κ ν compare

namespace Dict

variable {κ ν : Type} [Ord κ] [Std.TransOrd κ] [Std.LawfulEqOrd κ]

theorem find_insert [DecidableEq κ] (dict : Dict κ ν) (key other : κ) (value : ν) :
    (dict.insert key value)[other]? = if key = other then some value else dict[other]? := by
  simp [Std.ExtTreeMap.getElem?_insert]

@[simp] theorem find_insert_self (dict : Dict κ ν) (key : κ) (value : ν) :
    (dict.insert key value)[key]? = some value := by
  simp

theorem find_insert_of_ne (dict : Dict κ ν) {key other : κ} (apart : key ≠ other) (value : ν) :
    (dict.insert key value)[other]? = dict[other]? := by
  simp [Std.ExtTreeMap.getElem?_insert, apart]

theorem find_erase [DecidableEq κ] (dict : Dict κ ν) (key other : κ) :
    (dict.erase key)[other]? = if key = other then none else dict[other]? := by
  simp [Std.ExtTreeMap.getElem?_erase]

theorem mem_insert (dict : Dict κ ν) (key other : κ) (value : ν) :
    other ∈ dict.insert key value ↔ key = other ∨ other ∈ dict := by
  simp [Std.ExtTreeMap.mem_insert]

omit [Std.LawfulEqOrd κ] in
theorem find_filter (keep : ν → Bool) (dict : Dict κ ν) (key : κ) :
    (dict.filter fun _ value => keep value)[key]? = dict[key]?.filter keep := by
  rw [Std.ExtTreeMap.getElem?_filter, Option.pfilter_eq_filter]

theorem ofList_map_toList [DecidableEq κ] {ν' : Type} (change : ν → ν') (dict : Dict κ ν) :
    Std.ExtTreeMap.ofList (dict.toList.map fun entry => (entry.1, change entry.2)) compare =
      dict.map fun _ => change := by
  have distinct : (dict.toList.map fun entry => (entry.1, change entry.2)).Pairwise
      fun a b => ¬ compare a.1 b.1 = .eq := by
    rw [List.pairwise_map]
    exact Std.ExtTreeMap.distinct_keys_toList
  apply Std.ExtTreeMap.ext_getElem?
  intro key
  rw [Std.ExtTreeMap.getElem?_map]
  cases found : dict[key]? with
  | none =>
    -- The key is not listed, so it is not collected.
    rw [Option.map_none]
    apply Std.ExtTreeMap.getElem?_ofList_of_contains_eq_false
    rw [← Bool.not_eq_true]
    intro listed
    simp only [List.map_map, List.contains_iff_mem, List.mem_map, Function.comp] at listed
    obtain ⟨entry, member, rfl⟩ := listed
    rw [Std.ExtTreeMap.mem_toList_iff_getElem?_eq_some, found] at member
    cases member
  | some value =>
    rw [Option.map_some]
    apply Std.ExtTreeMap.getElem?_ofList_of_mem Std.compare_self distinct
    apply List.mem_map.mpr
    exact ⟨(key, value), Std.ExtTreeMap.mem_toList_iff_getElem?_eq_some.mpr found, rfl⟩

theorem map_eq_self {change : ν → ν} {dict : Dict κ ν} :
    dict.map (fun _ => change) = dict ↔
      ∀ (key : κ) value, dict[key]? = some value → change value = value := by
  constructor
  · intro same key value found
    have looked := congrArg (·[key]?) same
    simp only [Std.ExtTreeMap.getElem?_map, found, Option.map_some, Option.some.injEq] at looked
    exact looked
  · intro same
    apply Std.ExtTreeMap.ext_getElem?
    intro key
    rw [Std.ExtTreeMap.getElem?_map]
    cases found : dict[key]? with
    | none => rfl
    | some value => rw [Option.map_some, same key value found]

end Dict

end Hsm
