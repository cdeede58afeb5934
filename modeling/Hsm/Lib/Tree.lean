import Hsm.Lib.Bytes
import Std.Data.ExtTreeMap

/-! Ordered trees of byte-string keys with prefix scans, and keys composed of an owner and a suffix. -/

namespace Hsm

/-- A map from byte strings, in lexicographic order. -/
structure Tree (α : Type) where
  entries : Std.ExtTreeMap Bytes α compare

namespace Tree

variable {α : Type}

def empty : Tree α := ⟨∅⟩

variable (tree : Tree α)

def get (key : Bytes) : Option α := tree.entries[key]?

def insert (tree : Tree α) (key : Bytes) (value : α) : Tree α := ⟨tree.entries.insert key value⟩

def containsKey (key : Bytes) : Bool := tree.entries.contains key

def iter : List (Bytes × α) := tree.entries.toList

def scanPrefix (lead : Bytes) : List (Bytes × α) :=
  tree.iter.filter fun entry => lead.isPrefixOf entry.1

@[ext] theorem ext {first second : Tree α} (same : ∀ key, first.get key = second.get key) :
    first = second := by
  cases first
  cases second
  exact congrArg Tree.mk (Std.ExtTreeMap.ext_getElem? same)

@[simp] theorem get_empty (key : Bytes) : (empty : Tree α).get key = none := by
  simp [empty, get]

theorem get_insert (key other : Bytes) (value : α) :
    (tree.insert key value).get other = if key = other then some value else tree.get other := by
  -- The order is lawful, so equal comparison is equality of keys.
  simp [get, insert, Std.ExtTreeMap.getElem?_insert]

@[simp] theorem get_insert_self (key : Bytes) (value : α) :
    (tree.insert key value).get key = some value := by
  simp [get_insert]

theorem get_insert_of_ne {key other : Bytes} (value : α) (distinct : key ≠ other) :
    (tree.insert key value).get other = tree.get other := by
  simp [get_insert, distinct]

@[simp] theorem containsKey_eq (key : Bytes) :
    tree.containsKey key = (tree.get key).isSome := by
  simp [containsKey, get]

@[simp] theorem mem_iter {tree : Tree α} {key : Bytes} {value : α} :
    (key, value) ∈ tree.iter ↔ tree.get key = some value := by
  simp [iter, get, Std.ExtTreeMap.mem_toList_iff_getElem?_eq_some]

@[simp] theorem mem_scanPrefix {tree : Tree α} {lead key : Bytes} {value : α} :
    (key, value) ∈ tree.scanPrefix lead ↔ lead <+: key ∧ tree.get key = some value := by
  simp [scanPrefix, and_comm]

theorem iter_distinct : tree.iter.Pairwise fun a b => a.1 ≠ b.1 := by
  refine Std.ExtTreeMap.distinct_keys_toList.imp ?_
  intro a b apart same
  exact apart (Std.compare_eq_iff_eq.mpr same)

theorem scanPrefix_distinct (lead : Bytes) :
    (tree.scanPrefix lead).Pairwise fun a b => a.1 ≠ b.1 :=
  tree.iter_distinct.filter _

theorem scanPrefix_congr {first second : Tree α} {lead : Bytes}
    (same : ∀ key, lead <+: key → first.get key = second.get key) :
    first.scanPrefix lead = second.scanPrefix lead := by
  -- Cutting both trees down to the scanned keys leaves one and the same tree.
  have cut : first.entries.filter (fun key _ => lead.isPrefixOf key) =
      second.entries.filter (fun key _ => lead.isPrefixOf key) := by
    apply Std.ExtTreeMap.ext_getElem?
    intro key
    simp only [Std.ExtTreeMap.getElem?_filter']
    by_cases under : lead <+: key
    · rw [show first.entries[key]? = second.entries[key]? from same key under]
    · have unread : lead.isPrefixOf key = false := by
        rw [← Bool.not_eq_true, List.isPrefixOf_iff_prefix]
        exact under
      simp [unread]
  have lists := congrArg Std.ExtTreeMap.toList cut
  simpa [Std.ExtTreeMap.toList_filter, scanPrefix, iter] using lists

def mapValues {β : Type} (f : α → β) (tree : Tree α) : Tree β := ⟨tree.entries.map fun _ => f⟩

@[simp] theorem get_mapValues {β : Type} (f : α → β) (tree : Tree α) (key : Bytes) :
    (tree.mapValues f).get key = (tree.get key).map f := by
  simp [get, mapValues]

theorem iter_mapValues {β : Type} (f : α → β) (tree : Tree α) :
    (tree.mapValues f).iter = tree.iter.map fun entry => (entry.1, f entry.2) := by
  simp [iter, mapValues, Std.ExtTreeMap.toList_map]

theorem scanPrefix_mapValues {β : Type} (f : α → β) (tree : Tree α) (lead : Bytes) :
    (tree.mapValues f).scanPrefix lead =
      (tree.scanPrefix lead).map fun entry => (entry.1, f entry.2) := by
  simp only [scanPrefix, iter_mapValues, List.filter_map]
  rfl

theorem mapValues_eq {β : Type} {f : α → β} {first second : Tree α}
    (forth : ∀ key value, first.get key = some value → (second.get key).map f = some (f value))
    (back : ∀ key value, second.get key = some value → (first.get key).map f = some (f value)) :
    first.mapValues f = second.mapValues f := by
  ext1 key
  simp only [get_mapValues]
  cases found : first.get key with
  | some value => exact (forth key value found).symm
  | none =>
    cases other : second.get key with
    | none => rfl
    | some value =>
      have carried := back key value other
      rw [found] at carried
      cases carried

end Tree

def compositeKey (owner : Bytes) (separator : UInt8) (suffix : Bytes) : Bytes :=
  owner ++ separator :: suffix

def ownerPrefix (owner : Bytes) (separator : UInt8) : Bytes := owner ++ [separator]

theorem ownerPrefix_compositeKey (owner : Bytes) (separator : UInt8) (suffix : Bytes) :
    ownerPrefix owner separator <+: compositeKey owner separator suffix :=
  ⟨suffix, by simp [ownerPrefix, compositeKey]⟩

theorem compositeKey_inj {owner other : Bytes} {separator : UInt8} {suffix last : Bytes}
    (width : suffix.length = last.length) :
    compositeKey owner separator suffix = compositeKey other separator last ↔
      owner = other ∧ suffix = last := by
  constructor
  · intro same
    -- Equal total lengths and equal suffix lengths leave owners of equal length.
    have lengths := congrArg List.length same
    simp only [compositeKey, List.length_append, List.length_cons] at lengths
    obtain ⟨owners, tails⟩ := List.append_inj same (by omega)
    exact ⟨owners, (List.cons.inj tails).2⟩
  · rintro ⟨rfl, rfl⟩
    rfl

theorem owner_of_ownerPrefix {owner other : Bytes} {separator : UInt8} {suffix : Bytes}
    (under : ownerPrefix owner separator <+: compositeKey other separator suffix)
    (width : owner.length = other.length) : owner = other := by
  obtain ⟨rest, whole⟩ := under
  simp only [ownerPrefix, compositeKey, List.append_assoc] at whole
  exact (List.append_inj whole width).1

end Hsm
