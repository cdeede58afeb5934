import Hsm.Auth.Approval

/-! Escalation tiers: which one an amount reaches, and how many approvals that needs. -/

namespace Hsm.Auth

def EscalationTier.amount (tier : EscalationTier) : Nat := (decimalValue tier.threshold).getD 0

namespace ApprovalPolicy

def new (minApprovals : UInt32) (approvers : List String) : ApprovalPolicy :=
  { minApprovals, approvers }

def sortValue (tier : EscalationTier) : Nat := (parseU128 tier.threshold).getD 0

def addTier (policy : ApprovalPolicy) (tier : EscalationTier) : ApprovalPolicy :=
  { policy with escalationTiers :=
      (policy.escalationTiers ++ [tier]).mergeSort fun a b => sortValue b ≤ sortValue a }

def IsGreatest (tiers : List EscalationTier) (amount : Nat) : Option EscalationTier → Prop
  | none => ∀ tier ∈ tiers, amount < tier.amount
  | some found => found ∈ tiers ∧ found.amount ≤ amount ∧
    ∀ tier ∈ tiers, tier.amount ≤ amount → tier.amount ≤ found.amount

theorem parseU128_eq {text : String} {amount : Nat} (parsed : decimalValue text = some amount) :
    parseU128 text = if amount < 2 ^ 128 then some amount else none := by
  simp [parseU128, parsed, Option.filter_some]

theorem foldl_addTier (policy : ApprovalPolicy) (tiers : List EscalationTier)
    (sorted : policy.escalationTiers.Pairwise fun a b => sortValue b ≤ sortValue a) :
    let after := tiers.foldl addTier policy
    after.minApprovals = policy.minApprovals ∧
      (∀ tier, tier ∈ after.escalationTiers ↔ tier ∈ policy.escalationTiers ∨ tier ∈ tiers) ∧
      after.escalationTiers.Pairwise fun a b => sortValue b ≤ sortValue a := by
  induction tiers generalizing policy with
  | nil => simpa using sorted
  | cons tier tiers ih =>
    -- Each insertion sorts all tiers again, so the order of insertions does not matter.
    have sortedNext := @List.pairwise_mergeSort _ (fun a b => sortValue b ≤ sortValue a)
      (fun a b c => by simp; omega) (fun a b => by simp; omega) (policy.escalationTiers ++ [tier])
    obtain ⟨least, members, sorted⟩ :=
      ih (policy.addTier tier) (by simpa [addTier] using sortedNext)
    refine ⟨least, fun other => ?_, sorted⟩
    rw [List.foldl_cons, members other]
    simp [addTier, or_assoc]

theorem triggers_iff {tier : EscalationTier}
    (decimal : decimalValue tier.threshold = some tier.amount) {value : String} {amount : Nat}
    (parsed : decimalValue value = some amount) :
    tier.triggers value = true ↔ amount < 2 ^ 128 ∧ tier.amount ≤ amount := by
  rw [EscalationTier.triggers, parseU128_eq decimal, parseU128_eq parsed]
  split_ifs <;> simp <;> omega

/-- The right tier is found exactly if the amount fits the integers or reaches no tier. -/
theorem escalation_iff (minApprovals : UInt32) (approvers : List String)
    (tiers : List EscalationTier)
    (decimal : ∀ tier ∈ tiers, decimalValue tier.threshold = some tier.amount)
    (value : String) (amount : Nat) (parsed : decimalValue value = some amount) :
    let policy := tiers.foldl addTier (new minApprovals approvers)
    let Compared := amount < 2 ^ 128 ∨ ∀ tier ∈ tiers, amount < tier.amount
    (IsGreatest tiers amount (policy.getTier value) ↔ Compared) ∧
      (Compared →
        (∀ first ∈ tiers, ∀ second ∈ tiers, first.amount ≤ second.amount →
          first.requiredApprovals ≤ second.requiredApprovals) →
        (∀ tier ∈ tiers, minApprovals ≤ tier.requiredApprovals) →
        ∀ less smaller, decimalValue less = some smaller → smaller ≤ amount →
          policy.requiredApprovals less ≤ policy.requiredApprovals value) := by
  intro policy Compared
  obtain ⟨least, members, sorted⟩ := foldl_addTier (new minApprovals approvers) tiers .nil
  have member : ∀ tier, tier ∈ policy.escalationTiers ↔ tier ∈ tiers := by
    intro tier
    exact (members tier).trans (by simp [new])
  -- What is found is the first in the order of thresholds that the amount reaches.
  have greatest : ∀ text number, decimalValue text = some number →
      (number < 2 ^ 128 ∨ ∀ tier ∈ tiers, number < tier.amount) →
      IsGreatest tiers number (policy.getTier text) := by
    intro text number isNumber compared
    have reached : ∀ tier ∈ tiers, tier.triggers text = true ↔ tier.amount ≤ number := by
      intro tier isTier
      rw [triggers_iff (decimal tier isTier) isNumber, and_iff_right_iff_imp]
      intro reached
      exact compared.resolve_right fun none => by have := none tier isTier; omega
    cases found : policy.getTier text with
    | none =>
      intro tier isTier
      have missed := List.find?_eq_none.mp found tier ((member tier).mpr isTier)
      rw [reached tier isTier] at missed
      omega
    | some tier =>
      obtain ⟨triggered, before, after, split, missed⟩ := List.find?_eq_some_iff_append.mp found
      have isTier : tier ∈ tiers := (member tier).mp (by rw [split]; simp)
      refine ⟨isTier, (reached tier isTier).mp triggered, fun other isOther reachedOther => ?_⟩
      have placed := (member other).mpr isOther
      rw [split, List.mem_append, List.mem_cons] at placed
      rcases placed with earlier | same | later
      · have := missed other earlier
        rw [(reached other isOther).mpr reachedOther] at this
        cases this
      · rw [same]
      · have ordered : sortValue other ≤ sortValue tier := by
          rw [split] at sorted
          exact (List.pairwise_cons.mp (List.pairwise_append.mp sorted).2.1).1 other later
        obtain ⟨small, reachedTier⟩ := (triggers_iff (decimal tier isTier) isNumber).mp triggered
        rwa [sortValue, sortValue, parseU128_eq (decimal other isOther),
          parseU128_eq (decimal tier isTier), if_pos (by omega), if_pos (by omega)] at ordered
  refine ⟨⟨fun isGreatest => ?_, greatest value amount parsed⟩, ?_⟩
  · by_cases small : amount < 2 ^ 128
    · exact .inl small
    · -- What does not fit triggers nothing.
      have missed : policy.getTier value = none := by
        refine List.find?_eq_none.mpr fun tier isTier triggered => ?_
        exact small ((triggers_iff (decimal tier ((member tier).mp isTier)) parsed).mp triggered).1
      rw [missed] at isGreatest
      exact .inr isGreatest
  · intro compared grow base less smaller isSmaller below
    have atValue := greatest value amount parsed compared
    have atLess := greatest less smaller isSmaller (compared.imp (Nat.lt_of_le_of_lt below)
      fun none tier isTier => Nat.lt_of_le_of_lt below (none tier isTier))
    unfold requiredApprovals
    rw [show policy.minApprovals = minApprovals from least]
    cases found : policy.getTier value with
    | none =>
      rw [found] at atValue
      cases foundLess : policy.getTier less with
      | none => exact UInt32.le_refl _
      | some tier =>
        rw [foundLess] at atLess
        have := atValue tier atLess.1
        have := atLess.2.1
        omega
    | some tier =>
      rw [found] at atValue
      cases foundLess : policy.getTier less with
      | none => exact base tier atValue.1
      | some lower =>
        rw [foundLess] at atLess
        exact grow lower atLess.1 tier atValue.1
          (atValue.2.2 lower atLess.1 (Nat.le_trans atLess.2.1 below))

theorem oversized_amount_escapes :
    (((new 1 []).addTier ⟨"1000", 3, [], none⟩).requiredApprovals "1000",
      ((new 1 []).addTier ⟨"1000", 3, [], none⟩).requiredApprovals
        "340282366920938463463374607431768211456") = (3, 1) := by
  decide +kernel

theorem escalation_two_tiers :
    IsGreatest [⟨"10", 2, [], none⟩, ⟨"1000", 3, [], none⟩] 500
      (([⟨"10", 2, [], none⟩, ⟨"1000", 3, [], none⟩].foldl addTier (new 1 [])).getTier "500") :=
  (escalation_iff 1 [] [⟨"10", 2, [], none⟩, ⟨"1000", 3, [], none⟩] (by decide +kernel) "500" 500
    (by decide +kernel)).1.mpr (.inl (by decide))

end ApprovalPolicy

end Hsm.Auth
