import Hsm.Auth.Evaluation
import Hsm.Lib.Run
import Mathlib.Algebra.Order.BigOperators.Group.List

/-! Transactions that are evaluated and recorded, and what passing a limit says about amounts. -/

namespace Hsm.Auth

structure Transaction where
  txId : String
  ctx : TransactionContext
  evaluatedAt : Instant
  recordedAt : Instant
  deriving DecidableEq, Repr

def Transaction.record (tx : Transaction) : TransactionRecord :=
  ⟨tx.txId, tx.recordedAt, tx.ctx.assetType, tx.ctx.value, tx.ctx.recipient, tx.ctx.keyId,
    tx.ctx.ns, tx.ctx.user⟩

/-- What was tracked, and the last time. -/
structure Ledger where
  tracker : SpendingTracker
  clock : Instant

def PolicyEvaluator.process (evaluator : PolicyEvaluator) (ledger : Ledger) (tx : Transaction) :
    Ledger × List TransactionRecord :=
  match evaluator.evaluate ledger.tracker tx.evaluatedAt tx.ctx with
  | some ⟨.allow, _, _⟩ =>
    match ledger.tracker.record tx.record with
    | some tracker => (⟨tracker, tx.recordedAt⟩, [tx.record])
    | none => (⟨ledger.tracker, tx.recordedAt⟩, [])
  | _ => (⟨ledger.tracker, tx.recordedAt⟩, [])

def TransactionRecord.keys (record : TransactionRecord) : List (Option TrackerKey) :=
  [TrackerKey.forKey record.assetType record.keyId,
    TrackerKey.forNamespace record.assetType record.ns,
    TrackerKey.forUser record.assetType record.user, TrackerKey.global record.assetType]

/-- The clock does not go back, no limit is bypassed, and there is room for what is recorded. -/
structure Regular (evaluator : PolicyEvaluator) (ledger : Ledger) (tx : Transaction) : Prop where
  evaluated : ledger.clock ≤ tx.evaluatedAt
  recorded : tx.evaluatedAt ≤ tx.recordedAt
  noBypass : ∀ policy ∈ evaluator.spendingPolicy,
    policy.isBypassAddress evaluator.toLowercase tx.ctx.recipient = false
  room : tx.record ∈ (evaluator.process ledger tx).2 → ∀ key, some key ∈ tx.record.keys →
    (ledger.tracker.records key).length < ledger.tracker.maxHistory

def Transaction.Fits (tx : Transaction) : Prop :=
  ∃ value, decimalValue tx.ctx.value = some value ∧ value < 2 ^ 128

def spentSince (start : Instant) (records : List TransactionRecord) : Nat :=
  ((records.filter fun record => record.timestamp ≥ start).map fun record =>
    (parseU128 record.value).getD 0).sum

def amountSince (asset : AssetType) (keyId : String) (start : Instant)
    (records : List TransactionRecord) : Nat :=
  ((records.filter fun record => record.assetType = asset ∧ record.keyId = keyId ∧
    record.timestamp ≥ start).map fun record => (decimalValue record.value).getD 0).sum

section

variable {tracker : SpendingTracker} {now : Instant} {ctx : TransactionContext}

theorem saturatingAdd_min (first second : Nat) :
    saturatingAdd (min first (2 ^ 128 - 1)) second = min (first + second) (2 ^ 128 - 1) := by
  unfold saturatingAdd
  omega

theorem totalValue_foldl {start : Instant}
    {count : SpendingAggregate → TransactionRecord → SpendingAggregate}
    (counted : ∀ aggregate record, (count aggregate record).totalValue =
      if record.timestamp ≥ start then
        (parseU128 record.value).elim aggregate.totalValue (saturatingAdd aggregate.totalValue)
      else aggregate.totalValue)
    (records : List TransactionRecord) {aggregate : SpendingAggregate} {before : Nat}
    (total : aggregate.totalValue = min before (2 ^ 128 - 1)) :
    (records.foldl count aggregate).totalValue =
      min (before + spentSince start records) (2 ^ 128 - 1) := by
  -- The total so far is general, since each record adds to it.
  induction records generalizing aggregate before with
  | nil => exact total
  | cons record rest ih =>
    rw [List.foldl_cons]
    have after := counted aggregate record
    by_cases inside : record.timestamp ≥ start
    · have amounts : spentSince start (record :: rest) =
          (parseU128 record.value).getD 0 + spentSince start rest := by
        unfold spentSince
        rw [List.filter_cons_of_pos (by simpa using inside), List.map_cons, List.sum_cons]
      rw [amounts, ← Nat.add_assoc]
      apply ih
      rw [after, if_pos inside, total]
      cases parseU128 record.value with
      | none => rfl
      | some value => exact saturatingAdd_min before value
    · have skipped : spentSince start (record :: rest) = spentSince start rest := by
        unfold spentSince
        rw [List.filter_cons_of_neg (by simpa using inside)]
      rw [skipped]
      apply ih
      rw [after, if_neg inside, total]

/-- The aggregate is what the records amount to, cut off at the largest integer. -/
theorem totalValue_getAggregate (tracker : SpendingTracker) (key : TrackerKey) (window : TimeWindow)
    (now : Instant) :
    (tracker.getAggregate key window now).totalValue =
      min (spentSince (window.windowStart now) (tracker.records key)) (2 ^ 128 - 1) := by
  unfold SpendingTracker.getAggregate
  rw [@totalValue_foldl (window.windowStart now) _ ?_ _ _ 0 rfl, Nat.zero_add]
  intro aggregate record
  split
  · cases parseU128 record.value <;> rfl
  · rfl

theorem mem_of_mapM {α β : Type} {f : α → Option β} {items : List α} {results : List β}
    (mapped : items.mapM f = some results) {item : α} (member : item ∈ items) :
    ∃ result ∈ results, f item = some result := by
  induction items generalizing results with
  | nil => cases member
  | cons first rest ih =>
    rw [List.mapM_cons] at mapped
    obtain ⟨head, isHead, mapped⟩ := Option.bind_eq_some_iff.mp mapped
    obtain ⟨tail, isTail, mapped⟩ := Option.bind_eq_some_iff.mp mapped
    cases mapped
    rcases List.mem_cons.mp member with rfl | later
    · exact ⟨head, List.mem_cons_self, isHead⟩
    · obtain ⟨result, isIn, isResult⟩ := ih isTail later
      exact ⟨result, List.mem_cons_of_mem head isIn, isResult⟩

theorem passes_of_allow {evaluator : PolicyEvaluator} {policy : SpendingPolicy}
    (has : evaluator.spendingPolicy = some policy)
    (noBypass : policy.isBypassAddress evaluator.toLowercase ctx.recipient = false)
    {result : EvaluationResult} (evaluated : evaluator.evaluate tracker now ctx = some result)
    (allowed : result.decision = .allow) {limit : SpendingLimit} (member : limit ∈ policy.limits)
    (isFor : limit.assetType.matchesAsset ctx.assetType = true) :
    PolicyEvaluator.checkSpendingLimit tracker now ctx limit = some none := by
  unfold PolicyEvaluator.evaluate at evaluated
  split at evaluated
  · cases evaluated
    cases allowed
  · obtain ⟨⟨found, velocity⟩, given, evaluated⟩ := Option.bind_eq_some_iff.mp evaluated
    -- Nothing was found, neither hard nor soft.
    have none : found = [] := by
      simp only at evaluated
      split at evaluated
      · cases evaluated
        cases allowed
      · rename_i noHard
        split at evaluated
        · cases evaluated
          cases allowed
        · rename_i noSoft
          simp only [Bool.not_eq_true', List.isEmpty_eq_false_iff, not_not, List.append_eq_nil_iff,
            List.map_eq_nil_iff, List.filter_eq_nil_iff] at noHard noSoft
          apply List.eq_nil_iff_forall_not_mem.mpr
          intro entry isFound
          have notHard := noHard.1 entry isFound
          have notSoft := noSoft entry isFound
          simp_all
    subst none
    rw [has] at given
    simp only [PolicyEvaluator.limitViolations, noBypass, Bool.false_eq_true, if_false] at given
    obtain ⟨list, isList, given⟩ := Option.bind_eq_some_iff.mp given
    obtain ⟨others, -, given⟩ := Option.bind_eq_some_iff.mp given
    cases given
    obtain ⟨results, mapped, reduced⟩ := Option.bind_eq_some_iff.mp isList
    have listed : limit ∈ policy.limitsForAsset ctx.assetType :=
      List.mem_filter.mpr ⟨member, isFor⟩
    obtain ⟨outcome, isIn, checked⟩ := mem_of_mapM mapped listed
    obtain ⟨violation, isViolation, rfl⟩ := Option.map_eq_some_iff.mp checked
    cases violation with
    | none => exact isViolation
    | some violation =>
      have mentioned : (limit.hardLimit, violation) ∈ results.reduceOption :=
        List.reduceOption_mem_iff.mpr isIn
      rw [Option.some.inj reduced] at mentioned
      cases mentioned

theorem le_of_passes_single {limit : SpendingLimit} (single : limit.window = .perTransaction)
    (passes : PolicyEvaluator.checkSpendingLimit tracker now ctx limit = some none) {max value : Nat}
    (isMax : decimalValue limit.maxValue = some max) (isValue : decimalValue ctx.value = some value)
    (fits : value < 2 ^ 128) : value ≤ max := by
  by_contra above
  have less : max < value := Nat.lt_of_not_le above
  have parsedMax : limit.maxValueU128 = some max := by
    rw [SpendingLimit.maxValueU128, parseU128, isMax, Option.filter_some_pos]
    simp
    omega
  have parsed : parseU128 ctx.value = some value := by
    rw [parseU128, isValue, Option.filter_some_pos]
    simp
    omega
  have exceeds : limit.exceeds ctx.value = true := by
    rw [SpendingLimit.exceeds, parsedMax, parsed]
    simpa using less
  rw [PolicyEvaluator.checkSpendingLimit, if_pos single, if_pos exceeds] at passes
  cases passes

theorem le_of_passes_window {limit : SpendingLimit} (window : limit.window ≠ .perTransaction)
    (passes : PolicyEvaluator.checkSpendingLimit tracker now ctx limit = some none) {max value : Nat}
    (isMax : decimalValue limit.maxValue = some max) (below : max < 2 ^ 128 - 1)
    (isValue : decimalValue ctx.value = some value) (fits : value < 2 ^ 128) :
    ∃ key, TrackerKey.forKey ctx.assetType ctx.keyId = some key ∧
      spentSince (limit.window.windowStart now) (tracker.records key) + value ≤ max := by
  rw [PolicyEvaluator.checkSpendingLimit, if_neg window] at passes
  obtain ⟨key, isKey, passes⟩ := Option.bind_eq_some_iff.mp passes
  refine ⟨key, isKey, ?_⟩
  have parsedMax : limit.maxValueU128 = some max := by
    rw [SpendingLimit.maxValueU128, parseU128, isMax, Option.filter_some_pos]
    simp
    omega
  have parsed : parseU128 ctx.value = some value := by
    rw [parseU128, isValue, Option.filter_some_pos]
    simp
    omega
  simp only [parsedMax, parsed, Option.getD_some, totalValue_getAggregate, saturatingAdd_min] at passes
  by_cases above : min (spentSince (limit.window.windowStart now) (tracker.records key) + value)
      (2 ^ 128 - 1) > max
  · rw [Option.filter_some_pos (by simpa using above)] at passes
    cases passes
  · omega

end

end Hsm.Auth
