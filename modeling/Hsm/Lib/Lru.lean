import Mathlib.Data.List.Nodup
import Mathlib.Data.List.Perm.Basic

/-! A cache of bounded size that drops what was used least recently. -/

namespace Hsm

/-- Entries, those used last first, one for each key. -/
structure LruCache (κ ν : Type) where
  capacity : Nat
  entries : List (κ × ν)
  positive : 0 < capacity
  fits : entries.length ≤ capacity
  distinct : (entries.map Prod.fst).Nodup

namespace LruCache

variable {κ ν : Type} [DecidableEq κ]

def others (cache : LruCache κ ν) (key : κ) : List (κ × ν) :=
  cache.entries.filter fun entry => entry.1 ≠ key

theorem others_sublist (cache : LruCache κ ν) (key : κ) : (cache.others key).Sublist cache.entries :=
  List.filter_sublist

def new (capacity : Nat) (positive : 0 < capacity) : LruCache κ ν :=
  ⟨capacity, [], positive, Nat.zero_le _, List.nodup_nil⟩

theorem distinct_front (cache : LruCache κ ν) (key : κ) (value : ν) :
    (((key, value) :: cache.others key).map Prod.fst).Nodup := by
  rw [List.map_cons, List.nodup_cons]
  refine ⟨?_, cache.distinct.sublist ((cache.others_sublist key).map Prod.fst)⟩
  intro member
  obtain ⟨entry, kept, same⟩ := List.mem_map.mp member
  have apart := (List.mem_filter.mp kept).2
  simp [same] at apart

/-- The value of a key, now used last. -/
def get (cache : LruCache κ ν) (key : κ) : Option ν × LruCache κ ν :=
  match found : cache.entries.find? fun entry => entry.1 = key with
  | none => (none, cache)
  | some (_, value) => (some value, {
      cache with
      entries := (key, value) :: cache.others key
      fits := by
        have member := List.mem_of_find?_eq_some found
        have isKey := List.find?_some found
        have fewer : (cache.others key).length < cache.entries.length := by
          apply List.length_filter_lt_length_iff_exists.mpr
          exact ⟨_, member, by simpa using isKey⟩
        have bound := cache.fits
        rw [List.length_cons]
        omega
      distinct := cache.distinct_front key value })

def put (cache : LruCache κ ν) (key : κ) (value : ν) : LruCache κ ν where
  capacity := cache.capacity
  entries := ((key, value) :: cache.others key).take cache.capacity
  positive := cache.positive
  fits := List.length_take_le _ _
  distinct := (cache.distinct_front key value).sublist ((List.take_sublist _ _).map Prod.fst)

def pop (cache : LruCache κ ν) (key : κ) : LruCache κ ν where
  capacity := cache.capacity
  entries := cache.others key
  positive := cache.positive
  fits := Nat.le_trans (cache.others_sublist key).length_le cache.fits
  distinct := cache.distinct.sublist ((cache.others_sublist key).map Prod.fst)

def clear (cache : LruCache κ ν) : LruCache κ ν :=
  ⟨cache.capacity, [], cache.positive, Nat.zero_le _, List.nodup_nil⟩

variable {cache : LruCache κ ν} {key : κ}

theorem mem_of_get {after : LruCache κ ν} {value : ν} (found : cache.get key = (some value, after))
    :
    (key, value) ∈ cache.entries := by
  unfold get at found
  split at found
  · cases found
  · rename_i other seen there
    cases found
    have member := List.mem_of_find?_eq_some there
    have isKey : other = key := by simpa using List.find?_some there
    rw [← isKey]
    exact member

variable {entry : κ × ν}

theorem mem_entries_get (member : entry ∈ (cache.get key).2.entries) : entry ∈ cache.entries := by
  cases ran : cache.get key with
  | mk found after =>
    rw [ran] at member
    unfold get at ran
    split at ran
    · cases ran
      exact member
    · rename_i other value there
      cases ran
      rcases List.mem_cons.mp member with rfl | old
      · have isKey : other = key := by simpa using List.find?_some there
        rw [← isKey]
        exact List.mem_of_find?_eq_some there
      · exact (cache.others_sublist key).mem old

theorem mem_entries_put {value : ν} (member : entry ∈ (cache.put key value).entries) :
    entry = (key, value) ∨ entry ∈ cache.entries ∧ entry.1 ≠ key := by
  rcases List.mem_cons.mp (List.mem_of_mem_take member) with same | old
  · exact .inl same
  · obtain ⟨kept, apart⟩ := List.mem_filter.mp old
    exact .inr ⟨kept, by simpa using apart⟩

theorem mem_entries_pop (member : entry ∈ (cache.pop key).entries) :
    entry ∈ cache.entries ∧ entry.1 ≠ key := by
  obtain ⟨kept, apart⟩ := List.mem_filter.mp member
  exact ⟨kept, by simpa using apart⟩

end LruCache

end Hsm
