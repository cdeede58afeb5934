import Mathlib.Data.List.Nodup
import Mathlib.Data.List.Perm.Subperm
import Mathlib.Logic.Relation

/-! Worklists: going through successors of a start, what they collect, and when they come to an end. -/

namespace Hsm

variable {α : Type}

/-- Add the successors of each item to the end; no result means too few steps. -/
def worklist (next : α → List α) : Nat → List α → List α → Option (List α)
  | 0, _, _ => none
  | _ + 1, done, [] => some done
  | steps + 1, done, current :: rest =>
    worklist next steps (done ++ [current]) (rest ++ next current)

/-- A worklist collects all its items and their successors. -/
theorem worklist_closed {next : α → List α} {steps : Nat} {done pending result : List α}
    (ends : worklist next steps done pending = some result)
    (followed : ∀ item ∈ done, next item ⊆ done ++ pending) :
    done ++ pending ⊆ result ∧ ∀ item ∈ result, next item ⊆ result := by
  induction steps generalizing done pending with
  | zero => cases ends
  | succ steps ih =>
    cases pending with
    | nil =>
      cases ends
      rw [List.append_nil] at followed ⊢
      exact ⟨List.Subset.refl _, followed⟩
    | cons current rest =>
      -- The current item is followed up now, and the ones before stay so.
      have same : done ++ current :: rest ⊆ done ++ [current] ++ (rest ++ next current) := by
        intro item member
        simp only [List.mem_append, List.mem_cons] at member ⊢
        tauto
      obtain ⟨kept, closed⟩ := ih ends fun item member => by
        rcases List.mem_append.mp member with before | isCurrent
        · exact List.Subset.trans (followed item before) same
        · rw [List.mem_singleton.mp isCurrent]
          intro successor isNext
          simp [isNext]
      exact ⟨List.Subset.trans same kept, closed⟩

theorem mem_worklist_of_reaches {next : α → List α} {steps : Nat} {start item : α}
    {result : List α} (ends : worklist next steps [] [start] = some result)
    (reaches : Relation.ReflTransGen (fun first second => second ∈ next first) start item) :
    item ∈ result := by
  obtain ⟨kept, closed⟩ := worklist_closed ends (by simp)
  induction reaches with
  | refl => exact kept (by simp)
  | tail path edge ih => exact closed _ ih edge

/-- A worklist with an item that leads to itself never ends. -/
theorem worklist_endless {next : α → List α} {start : α}
    (cycle : Relation.TransGen (fun first second => second ∈ next first) start start) (steps : Nat)
    (done pending : List α)
    (onCycle : ∃ item ∈ pending,
      Relation.ReflTransGen (fun first second => second ∈ next first) item start) :
    worklist next steps done pending = none := by
  induction steps generalizing done pending with
  | zero => rfl
  | succ steps ih =>
    obtain ⟨item, member, path⟩ := onCycle
    cases pending with
    | nil => cases member
    | cons current rest =>
      refine ih _ _ ?_
      rcases List.mem_cons.mp member with rfl | later
      · -- The current item leads on to the start by one of its successors.
        have further : Relation.TransGen (fun first second => second ∈ next first) item start := by
          rcases Relation.reflTransGen_iff_eq_or_transGen.mp path with same | further
          · rw [← same]
            exact cycle
          · exact further
        obtain ⟨successor, edge, rest⟩ := Relation.TransGen.head'_iff.mp further
        exact ⟨successor, List.mem_append_right _ edge, rest⟩
      · exact ⟨item, List.mem_append_left _ later, path⟩

/-- Each item is on the list once, below what is done. -/
structure Progress (next : α → List α) (start : α) (done pending : List α) : Prop where
  once : (done ++ pending).Nodup
  below : ∀ item ∈ done ++ pending, item = start ∨ ∃ parent ∈ done, item ∈ next parent
  reached : ∀ item ∈ done ++ pending,
    Relation.ReflTransGen (fun first second => second ∈ next first) start item

section

variable {next : α → List α} {start : α}
  (unique : ∀ first second item, item ∈ next first → item ∈ next second → first = second)
  (distinct : ∀ item, (next item).Nodup)
  (acyclic : ¬ Relation.TransGen (fun first second => second ∈ next first) start start)

include unique distinct acyclic

theorem Progress.step {done rest : List α} {current : α}
    (progress : Progress next start done (current :: rest)) :
    Progress next start (done ++ [current]) (rest ++ next current) := by
  have path := progress.reached current (by simp)
  have apart : List.Disjoint (done ++ current :: rest) (next current) := by
    intro item member isNext
    rcases progress.below item member with rfl | ⟨parent, isDone, isChild⟩
    · exact acyclic (Relation.TransGen.tail' path isNext)
    · -- The parent of the item is the current one, which is not done yet.
      cases unique parent current item isChild isNext
      exact (List.nodup_append.mp progress.once).2.2 _ isDone _ (by simp) rfl
  have list : done ++ [current] ++ (rest ++ next current) =
      done ++ current :: rest ++ next current := by simp
  refine ⟨?_, ?_, ?_⟩
  · rw [list]
    exact progress.once.append (distinct current) apart
  · intro item member
    rw [list] at member
    rcases List.mem_append.mp member with before | isNext
    · rcases progress.below item before with isStart | ⟨parent, isDone, isChild⟩
      · exact .inl isStart
      · exact .inr ⟨parent, List.mem_append_left _ isDone, isChild⟩
    · exact .inr ⟨current, by simp, isNext⟩
  · intro item member
    rw [list] at member
    rcases List.mem_append.mp member with before | isNext
    · exact progress.reached item before
    · exact path.tail isNext

/-- A worklist over a finite forest ends, if its start is not below itself. -/
theorem worklist_ends {items : List α} (within : ∀ item, next item ⊆ items) (steps : Nat)
    (done pending : List α) (progress : Progress next start done pending)
    (enough : items.length + 2 ≤ done.length + steps) :
    ∃ result, worklist next steps done pending = some result := by
  induction steps generalizing done pending with
  | zero =>
    have few : (done ++ pending).length ≤ (start :: items).length := by
      refine (List.subperm_of_subset progress.once fun item member => ?_).length_le
      rcases progress.below item member with rfl | ⟨parent, -, isChild⟩
      · exact List.mem_cons_self
      · exact List.mem_cons_of_mem _ (within parent isChild)
    simp only [List.length_append, List.length_cons] at few
    omega
  | succ steps ih =>
    cases pending with
    | nil => exact ⟨done, rfl⟩
    | cons current rest =>
      refine ih _ _ (progress.step unique distinct acyclic) ?_
      rw [List.length_append, List.length_singleton]
      omega

end

end Hsm
