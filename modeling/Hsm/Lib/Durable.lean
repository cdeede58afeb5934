import Hsm.Lib.Tree

/-! State kept twice, in memory and on disk, and promises about it that survive crashes. -/

namespace Hsm

/-- Writes reach the disk only when flushed. -/
structure Durable (σ : Type) where
  live : σ
  synced : σ

namespace Durable

variable {σ : Type}

def opened (state : σ) : Durable σ := ⟨state, state⟩

def write (store : Durable σ) (change : σ → σ) : Durable σ :=
  { store with live := change store.live }

def flush (store : Durable σ) : Durable σ := { store with synced := store.live }

def crash (store : Durable σ) : Durable σ := { store with live := store.synced }

@[simp] theorem opened_live (state : σ) : (opened state).live = state := rfl

@[simp] theorem opened_synced (state : σ) : (opened state).synced = state := rfl

@[simp] theorem write_live (store : Durable σ) (change : σ → σ) :
    (store.write change).live = change store.live := rfl

@[simp] theorem write_synced (store : Durable σ) (change : σ → σ) :
    (store.write change).synced = store.synced := rfl

@[simp] theorem flush_live (store : Durable σ) : store.flush.live = store.live := rfl

@[simp] theorem flush_synced (store : Durable σ) : store.flush.synced = store.live := rfl

@[simp] theorem crash_live (store : Durable σ) : store.crash.live = store.synced := rfl

@[simp] theorem crash_synced (store : Durable σ) : store.crash.synced = store.synced := rfl

section Grants

variable {ι ρ : Type} (view : σ → ι → Option ρ)

def Grows (first second : σ) : Prop :=
  ∀ key value, view first key = some value → view second key = some value

/-- Every promise is backed by an entry on disk, and memory shows the disk. -/
structure Backed (store : Durable σ) (promises : List (ι × ρ)) : Prop where
  kept : Grows view store.synced store.live
  onDisk : ∀ promise ∈ promises, view store.synced promise.1 = some promise.2

variable {view} {store : Durable σ} {promises : List (ι × ρ)}

namespace Backed

theorem opened (state : σ) : Backed view (.opened state) [] where
  kept := fun _ _ found => found
  onDisk := by simp

theorem write {change : σ → σ} (backed : Backed view store promises)
    (grows : Grows view store.live (change store.live)) :
    Backed view (store.write change) promises where
  kept := fun key value found => grows key value (backed.kept key value found)
  onDisk := backed.onDisk

/-- A flush keeps every promise, as the disk catches up. -/
theorem flush (backed : Backed view store promises) : Backed view store.flush promises where
  kept := fun _ _ found => found
  onDisk := fun promise member => backed.kept _ _ (backed.onDisk promise member)

theorem crash (backed : Backed view store promises) : Backed view store.crash promises where
  kept := fun _ _ found => found
  onDisk := backed.onDisk

theorem promise (backed : Backed view store promises) {key : ι} {value : ρ}
    (found : view store.synced key = some value) :
    Backed view store (promises ++ [(key, value)]) where
  kept := backed.kept
  onDisk := by
    intro promise member
    rcases List.mem_append.mp member with old | new
    · exact backed.onDisk promise old
    · rw [List.mem_singleton.mp new]
      exact found

/-- What memory does not show was never promised. -/
theorem not_promised (backed : Backed view store promises) {key : ι}
    (absent : view store.live key = none) (value : ρ) : (key, value) ∉ promises := by
  intro promised
  have shown := backed.kept key value (backed.onDisk _ promised)
  rw [absent] at shown
  cases shown

theorem agree (backed : Backed view store promises) {key : ι} {first second : ρ}
    (one : (key, first) ∈ promises) (two : (key, second) ∈ promises) : first = second :=
  Option.some.inj ((backed.onDisk _ one).symm.trans (backed.onDisk _ two))

end Backed

end Grants

end Durable

namespace Tree

variable {α : Type}

def Extends (first second : Tree α) : Prop :=
  ∀ key value, first.get key = some value → second.get key = some value

@[refl] theorem Extends.refl (tree : Tree α) : tree.Extends tree := fun _ _ found => found

theorem Extends.insert_of_absent {tree : Tree α} {key : Bytes} (absent : tree.get key = none)
    (value : α) : tree.Extends (tree.insert key value) := by
  -- A stored key differs from the free one, so its entry is left alone.
  intro other stored found
  have apart : key ≠ other := by
    rintro rfl
    rw [absent] at found
    cases found
  rw [get_insert_of_ne _ _ apart, found]

end Tree

end Hsm
