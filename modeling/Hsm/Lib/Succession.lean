import Mathlib.Logic.Relation

/-! Chains of things that succeed one another, in which nothing has two successors. -/

namespace Hsm

variable {α : Type} {succeeds : α → α → Prop} {first second tip : α}

def IsTip (succeeds : α → α → Prop) (tip : α) : Prop := ∀ next, ¬ succeeds tip next

theorem leads_to_tip_iff
    (unique : ∀ earlier next other, succeeds earlier next → succeeds earlier other → next = other)
    (isTip : IsTip succeeds tip) (linked : Relation.EqvGen succeeds first second) :
    Relation.ReflTransGen succeeds first tip ↔ Relation.ReflTransGen succeeds second tip := by
  induction linked with
  | rel earlier later next =>
    refine ⟨fun leads => ?_, fun leads => .head next leads⟩
    -- The way to the tip has to go on to the one successor there is.
    cases leads.cases_head with
    | inl same => exact absurd next (same ▸ isTip later)
    | inr step =>
      obtain ⟨other, toOther, rest⟩ := step
      rwa [unique earlier later other next toOther]
  | refl member => rfl
  | symm one other _ ih => exact ih.symm
  | trans one middle other _ _ toMiddle fromMiddle => exact toMiddle.trans fromMiddle

theorem tip_unique
    (unique : ∀ earlier next other, succeeds earlier next → succeeds earlier other → next = other)
    (isTip : IsTip succeeds first) (isTip' : IsTip succeeds second)
    (linked : Relation.EqvGen succeeds first second) : first = second := by
  have leads := (leads_to_tip_iff unique isTip linked).mp .refl
  cases leads.cases_head with
  | inl same => exact same.symm
  | inr step =>
    obtain ⟨next, toNext, -⟩ := step
    exact absurd toNext (isTip' next)

end Hsm
