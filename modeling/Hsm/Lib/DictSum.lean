import Hsm.Lib.Dict
import Mathlib.Algebra.BigOperators.Group.List.Basic

/-! Sums over the values of finite maps. -/

namespace Hsm.Dict

variable {κ ν M : Type} [Ord κ] [Std.TransOrd κ] [Std.LawfulEqOrd κ]

def items (dict : Dict κ ν) : List ν := dict.toList.map Prod.snd

variable {dict : Dict κ ν}

theorem mem_items {item : ν} :
    item ∈ dict.items ↔ ∃ key : κ, dict[key]? = some item := by
  rw [items, List.mem_map]
  constructor
  · rintro ⟨⟨key, value⟩, member, rfl⟩
    exact ⟨key, Std.ExtTreeMap.mem_toList_iff_getElem?_eq_some.mp member⟩
  · rintro ⟨key, found⟩
    exact ⟨(key, item), Std.ExtTreeMap.mem_toList_iff_getElem?_eq_some.mpr found, rfl⟩

theorem nodup_keys (dict : Dict κ ν) : dict.keys.Nodup := by
  refine List.Pairwise.imp (fun {first second} apart same => apart ?_)
    Std.ExtTreeMap.distinct_keys
  exact Std.compare_eq_iff_eq.mpr same

variable {keys : List κ}

/-- A map with as many keys as a list covers it has them all. -/
theorem perm_keys (among : ∀ key, key ∈ dict → key ∈ keys) (enough : keys.length ≤ dict.size) :
    dict.keys.Perm keys := by
  have subset : dict.keys ⊆ keys := fun key member =>
    among key (Std.ExtTreeMap.mem_keys.mp member)
  refine (List.subperm_of_subset dict.nodup_keys subset).perm_of_length_le ?_
  rwa [Std.ExtTreeMap.length_keys]

theorem perm_keys_of_mem (distinct : keys.Nodup) (same : ∀ key, key ∈ dict ↔ key ∈ keys) :
    dict.keys.Perm keys := by
  refine (List.perm_ext_iff_of_nodup dict.nodup_keys distinct).mpr fun key => ?_
  rw [Std.ExtTreeMap.mem_keys, same]

theorem sum_items [AddCommMonoid M] (value : ν → M) (perm : dict.keys.Perm keys) :
    (dict.items.map value).sum = (keys.map fun key => (dict[key]?.map value).getD 0).sum := by
  have byKey : dict.items.map value =
      dict.keys.map fun key => (dict[key]?.map value).getD 0 := by
    rw [items, List.map_map, ← Std.ExtTreeMap.map_fst_toList_eq_keys, List.map_map]
    refine List.map_congr_left fun entry member => ?_
    have found := Std.ExtTreeMap.mem_toList_iff_getElem?_eq_some.mp member
    simp [found]
  rw [byKey]
  exact (perm.map _).sum_eq

end Hsm.Dict
