import Hsm.Auth.SpendingLaws
import Mathlib.Algebra.Order.Group.Nat

/-! Spending limits hold over time, as long as all amounts fit the integers they are parsed as. -/

namespace Hsm.Auth

/-- No history is longer than it may be. -/
def SpendingTracker.Trimmed (tracker : SpendingTracker) : Prop :=
  ∀ key, (tracker.records key).length ≤ tracker.maxHistory

section

variable {tracker : SpendingTracker} {key : TrackerKey}

theorem records_recordForKey_of_ne (trimmed : tracker.Trimmed) {other : TrackerKey}
    (apart : key ≠ other) {record : TransactionRecord} :
    (tracker.recordForKey key record).records other = tracker.records other := by
  have short := trimmed other
  simp only [SpendingTracker.recordForKey, SpendingTracker.records, Std.ExtTreeMap.getElem?_map,
    Dict.find_insert, if_neg apart] at short ⊢
  cases found : tracker.transactions[other]? with
  | none => rfl
  | some records =>
    rw [found, Option.getD_some] at short
    rw [Option.map_some, Option.getD_some, Option.getD_some, Nat.sub_eq_zero_of_le short,
      List.drop_zero]

theorem records_recordForKey_self (record : TransactionRecord) :
    (tracker.recordForKey key record).records key = (tracker.records key ++ [record]).drop
      ((tracker.records key ++ [record]).length - tracker.maxHistory) := by
  simp [SpendingTracker.recordForKey, SpendingTracker.records]

theorem SpendingTracker.Trimmed.recordForKey (trimmed : tracker.Trimmed) (key : TrackerKey)
    (record : TransactionRecord) : (tracker.recordForKey key record).Trimmed := by
  intro other
  by_cases same : key = other
  · subst same
    rw [records_recordForKey_self, List.length_drop]
    exact Nat.sub_le_of_le_add (by show _ ≤ tracker.maxHistory + _; omega)
  · rw [records_recordForKey_of_ne trimmed same]
    exact trimmed other

theorem records_recordForKey (trimmed : tracker.Trimmed)
    (room : (tracker.records key).length < tracker.maxHistory) (record : TransactionRecord)
    (other : TrackerKey) :
    (tracker.recordForKey key record).records other =
      if key = other then tracker.records other ++ [record] else tracker.records other := by
  split
  next same =>
    subst same
    rw [records_recordForKey_self, List.length_append, List.length_singleton,
      Nat.sub_eq_zero_of_le room, List.drop_zero]
  next apart => exact records_recordForKey_of_ne trimmed apart

theorem scopes_apart (keyId ns user : String) :
    ("key:" ++ keyId ≠ "ns:" ++ ns ∧ "key:" ++ keyId ≠ "user:" ++ user ∧ "key:" ++ keyId ≠ "global") ∧
      ("ns:" ++ ns ≠ "user:" ++ user ∧ "ns:" ++ ns ≠ "global") ∧ "user:" ++ user ≠ "global" := by
  have heads : ∀ first second : String, first.toList.head? ≠ second.toList.head? →
      first ≠ second := fun first second apart same => apart (by rw [same])
  refine ⟨⟨?_, ?_, ?_⟩, ⟨?_, ?_⟩, ?_⟩ <;>
  · apply heads
    simp [String.toList_append]

theorem records_foldl {keys : List TrackerKey} (distinct : keys.Nodup) (trimmed : tracker.Trimmed)
    (room : ∀ key ∈ keys, (tracker.records key).length < tracker.maxHistory)
    (record : TransactionRecord) :
    (keys.foldl (fun tracker key => tracker.recordForKey key record) tracker).Trimmed ∧
      ∀ other, (keys.foldl (fun tracker key => tracker.recordForKey key record) tracker).records other =
        if other ∈ keys then tracker.records other ++ [record] else tracker.records other := by
  induction keys generalizing tracker with
  | nil => exact ⟨trimmed, fun other => rfl⟩
  | cons key rest ih =>
    obtain ⟨fresh, distinct⟩ := List.nodup_cons.mp distinct
    have roomHere := room key List.mem_cons_self
    have added := records_recordForKey trimmed roomHere record
    -- The keys to come are other ones, so they have the room they had.
    have roomLater : ∀ later ∈ rest, ((tracker.recordForKey key record).records later).length <
        (tracker.recordForKey key record).maxHistory := by
      intro later member
      rw [added, if_neg fun same : key = later => fresh (same ▸ member)]
      exact room later (List.mem_cons_of_mem key member)
    obtain ⟨trimmedLater, recorded⟩ :=
      ih distinct (trimmed.recordForKey key record) roomLater
    refine ⟨trimmedLater, fun other => ?_⟩
    rw [List.foldl_cons, recorded, added]
    by_cases same : key = other
    · subst same
      rw [if_neg fresh, if_pos rfl, if_pos List.mem_cons_self]
    · rw [if_neg same]
      simp only [List.mem_cons, Ne.symm same, false_or]

theorem records_record {record : TransactionRecord} {after : SpendingTracker}
    (recorded : tracker.record record = some after) (trimmed : tracker.Trimmed)
    (room : ∀ key, some key ∈ record.keys → (tracker.records key).length < tracker.maxHistory) :
    after.Trimmed ∧ ∀ key, after.records key =
      if some key ∈ record.keys then tracker.records key ++ [record] else tracker.records key := by
  cases shown : record.assetType.display with
  | none => simp [SpendingTracker.record, TrackerKey.forKey, TrackerKey.forScope, shown] at recorded
  | some asset =>
    have forScope : ∀ scope, TrackerKey.forScope record.assetType scope = some (asset, scope) :=
      fun scope => by rw [TrackerKey.forScope, shown, Option.map_some]
    let keys := [(asset, "key:" ++ record.keyId), (asset, "ns:" ++ record.ns),
      (asset, "user:" ++ record.user), (asset, "global")]
    have sameKeys : record.keys = keys.map some := by
      simp only [TransactionRecord.keys, TrackerKey.forKey, TrackerKey.forNamespace,
        TrackerKey.forUser, TrackerKey.global, forScope]
      rfl
    have isKey : ∀ key, some key ∈ record.keys ↔ key ∈ keys := by
      intro key
      rw [sameKeys, List.mem_map]
      simp
    have distinct : keys.Nodup := by
      obtain ⟨⟨ns, user, glob⟩, ⟨user', glob'⟩, glob''⟩ :=
        scopes_apart record.keyId record.ns record.user
      simp [keys, ns, user, glob, user', glob', glob'']
    simp only [SpendingTracker.record, TrackerKey.forKey, TrackerKey.forNamespace,
      TrackerKey.forUser, TrackerKey.global, forScope, Option.bind_eq_bind, Option.bind_some,
      Option.pure_def, Option.some.injEq] at recorded
    have folded := records_foldl distinct trimmed (fun key member => room key ((isKey key).mpr member))
      record
    rw [show keys.foldl (fun tracker key => tracker.recordForKey key record) tracker = after
      from recorded] at folded
    refine ⟨folded.1, fun key => ?_⟩
    rw [folded.2]
    simp only [isKey]

theorem spentSince_le {records more : List TransactionRecord} (start : Instant)
    (fewer : records.Sublist more) : spentSince start records ≤ spentSince start more :=
  ((fewer.filter _).map _).sum_le_sum fun _ _ => Nat.zero_le _

theorem amountSince_le {asset : AssetType} {keyId : String} {start later : Instant}
    (le : start ≤ later) (records : List TransactionRecord) :
    amountSince asset keyId later records ≤ amountSince asset keyId start records := by
  refine ((List.monotone_filter_right records ?_).map _).sum_le_sum fun _ _ => Nat.zero_le _
  intro record inside
  simp only [ge_iff_le, decide_eq_true_eq] at inside ⊢
  exact ⟨inside.1, inside.2.1, Int.le_trans le inside.2.2⟩

theorem amountSince_append {asset : AssetType} {keyId : String} {start : Instant}
    (records : List TransactionRecord) (record : TransactionRecord) :
    amountSince asset keyId start (records ++ [record]) = amountSince asset keyId start records +
      if record.assetType = asset ∧ record.keyId = keyId ∧ record.timestamp ≥ start then
        (decimalValue record.value).getD 0 else 0 := by
  unfold amountSince
  rw [List.filter_append, List.map_append, List.sum_append]
  congr 1
  split
  · rename_i counts
    rw [List.filter_cons_of_pos (by simpa using counts)]
    simp
  · rename_i skipped
    rw [List.filter_cons_of_neg (by simpa using skipped)]
    simp

end

theorem matchesAsset_self (asset : AssetType) : asset.matchesAsset asset = true := by
  cases asset <;> simp [AssetType.matchesAsset]

def AllFit (records : List TransactionRecord) : Prop :=
  ∀ record ∈ records, ∃ value, decimalValue record.value = some value ∧ value < 2 ^ 128

theorem amountSince_eq {asset : AssetType} {keyId : String} {start : Instant}
    {records : List TransactionRecord} (fit : AllFit records) :
    amountSince asset keyId start records = spentSince start
      (records.filter fun record => record.assetType = asset ∧ record.keyId = keyId) := by
  unfold amountSince spentSince
  rw [List.filter_filter]
  have sameFilter : (records.filter fun record => record.assetType = asset ∧ record.keyId = keyId ∧
      record.timestamp ≥ start) = records.filter fun record =>
        decide (record.timestamp ≥ start) &&
          decide (record.assetType = asset ∧ record.keyId = keyId) := by
    apply List.filter_congr
    intro record _
    simp only [ge_iff_le, Bool.decide_and]
    grind
  rw [sameFilter]
  apply congrArg List.sum
  apply List.map_congr_left
  intro record member
  obtain ⟨value, isValue, fits⟩ := fit record (List.mem_filter.mp member).1
  rw [parseU128, isValue, Option.filter_some_pos (by simpa using fits)]

/-- What is spent stays within a limit over time. -/
structure Within (asset : AssetType) (keyId : String) (span : Span) (max : Nat) (ledger : Ledger)
    (past : List TransactionRecord) : Prop where
  trimmed : ledger.tracker.Trimmed
  tracked : ∀ key, TrackerKey.forKey asset keyId = some key →
    (past.filter fun record => record.assetType = asset ∧ record.keyId = keyId).Sublist
      (ledger.tracker.records key)
  fit : AllFit past
  within : ∀ now, ledger.clock ≤ now → amountSince asset keyId (now - span) past ≤ max

section

variable {evaluator : PolicyEvaluator} {policy : SpendingPolicy} {limit : SpendingLimit}
  {span : Span} {max : Nat} {keyId : String} {ledger : Ledger} {past : List TransactionRecord}

theorem Within.process (has : evaluator.spendingPolicy = some policy) (member : limit ∈ policy.limits)
    (isSpan : limit.window.duration = some span) (isMax : decimalValue limit.maxValue = some max)
    (below : max < 2 ^ 128 - 1)
    (inv : Within limit.assetType keyId span max ledger past) {tx : Transaction}
    (regular : Regular evaluator ledger tx) (fits : tx.Fits) :
    Within limit.assetType keyId span max (evaluator.process ledger tx).1
      (past ++ (evaluator.process ledger tx).2) := by
  have later : ledger.clock ≤ tx.recordedAt := Int.le_trans regular.evaluated regular.recorded
  have unrecorded : Within limit.assetType keyId span max ⟨ledger.tracker, tx.recordedAt⟩
      (past ++ []) := by
    rw [List.append_nil]
    exact ⟨inv.trimmed, inv.tracked, inv.fit, fun now after => inv.within now (Int.le_trans later after)⟩
  unfold PolicyEvaluator.process
  split
  · rename_i violations approvals evaluated
    split
    · rename_i tracker recorded
      have isRecorded : tx.record ∈ (evaluator.process ledger tx).2 := by
        simp [PolicyEvaluator.process, evaluated, recorded]
      obtain ⟨trimmed, records⟩ := records_record recorded inv.trimmed (regular.room isRecorded)
      obtain ⟨value, isValue, small⟩ := fits
      refine ⟨trimmed, ?_, ?_, ?_⟩
      · intro key isKey
        rw [records, List.filter_append]
        by_cases counts : tx.record.assetType = limit.assetType ∧ tx.record.keyId = keyId
        · have named : some key ∈ tx.record.keys := by
            rw [← isKey, ← counts.1, ← counts.2]
            exact List.mem_cons_self
          rw [if_pos named]
          exact (inv.tracked key isKey).append List.filter_sublist
        · rw [List.filter_cons_of_neg (by simpa using counts), List.filter_nil, List.append_nil]
          split
          · exact (inv.tracked key isKey).trans (List.sublist_append_left _ _)
          · exact inv.tracked key isKey
      · intro record isRecord
        rcases List.mem_append.mp isRecord with old | new
        · exact inv.fit record old
        · cases List.mem_singleton.mp new
          exact ⟨value, isValue, small⟩
      · intro now after
        rw [amountSince_append]
        split
        · rename_i counts
          -- The evaluation counted all that was spent in the window that ended then.
          have isFor : limit.assetType.matchesAsset tx.ctx.assetType = true := by
            rw [show tx.ctx.assetType = limit.assetType from counts.1, matchesAsset_self]
          have passes := passes_of_allow has (regular.noBypass policy has) evaluated rfl member isFor
          have aggregated : limit.window ≠ .perTransaction := by
            intro single
            rw [single] at isSpan
            cases isSpan
          obtain ⟨key, isKey, room⟩ :=
            le_of_passes_window aggregated passes isMax below isValue small
          rw [TimeWindow.windowStart, isSpan] at room
          have tracked := inv.tracked key (by rw [← counts.1, ← counts.2.1]; exact isKey)
          have earlier : tx.evaluatedAt - span ≤ now - span :=
            Int.sub_le_sub_right (Int.le_trans regular.recorded after) span
          have spent : amountSince limit.assetType keyId (now - span) past ≤
              spentSince (tx.evaluatedAt - span) (ledger.tracker.records key) :=
            calc amountSince limit.assetType keyId (now - span) past
              _ ≤ amountSince limit.assetType keyId (tx.evaluatedAt - span) past :=
                amountSince_le earlier past
              _ = spentSince (tx.evaluatedAt - span) _ := amountSince_eq inv.fit
              _ ≤ spentSince (tx.evaluatedAt - span) (ledger.tracker.records key) :=
                spentSince_le _ tracked
          show _ + (decimalValue tx.ctx.value).getD 0 ≤ max
          rw [isValue, Option.getD_some]
          exact Nat.le_trans (Nat.add_le_add_right spent value) room
        · exact inv.within now (Int.le_trans later after)
    · exact unrecorded
  · exact unrecorded

end

/-- At every moment of every run, what is recorded inside a window stays within its limits. -/
theorem spending_limits_hold {evaluator : PolicyEvaluator} {policy : SpendingPolicy}
    (has : evaluator.spendingPolicy = some policy) {limit : SpendingLimit}
    (member : limit ∈ policy.limits) {max : Nat} (isMax : decimalValue limit.maxValue = some max)
    {maxHistory : Nat} {clock : Instant} {txs : List Transaction}
    (regular : Along (fun ledger tx => Regular evaluator ledger tx ∧ tx.Fits) evaluator.process
      ⟨.withMaxHistory maxHistory, clock⟩ txs) :
    (limit.window = .perTransaction →
      Along (fun ledger tx => ∀ result,
        evaluator.evaluate ledger.tracker tx.evaluatedAt tx.ctx = some result →
        result.decision = .allow → limit.assetType.matchesAsset tx.ctx.assetType = true →
        ∀ value, decimalValue tx.ctx.value = some value → value ≤ max)
        evaluator.process ⟨.withMaxHistory maxHistory, clock⟩ txs) ∧
    ∀ span, limit.window.duration = some span → max < 2 ^ 128 - 1 → ∀ keyId now,
      (trace evaluator.process ⟨.withMaxHistory maxHistory, clock⟩ txs).1.clock ≤ now →
      amountSince limit.assetType keyId (now - span)
        (trace evaluator.process ⟨.withMaxHistory maxHistory, clock⟩ txs).2 ≤ max := by
  constructor
  · intro single
    apply Along.of_invariant (fun _ => True) (fun _ _ _ _ => trivial) _ txs _ trivial regular
    intro ledger tx _ ⟨regular, isValue', isThat, small⟩ result evaluated allowed isFor value isValue
    have passes := passes_of_allow has (regular.noBypass policy has) evaluated allowed member isFor
    cases isThat.symm.trans isValue
    exact le_of_passes_single single passes isMax isValue small
  · intro span isSpan below keyId now after
    have start : Within limit.assetType keyId span max ⟨.withMaxHistory maxHistory, clock⟩ [] := by
      refine ⟨fun key => ?_, fun key _ => List.nil_sublist _, (fun _ member => nomatch member),
        fun now _ => Nat.zero_le max⟩
      rw [SpendingTracker.records, SpendingTracker.withMaxHistory, Std.ExtTreeMap.getElem?_empty]
      exact Nat.zero_le maxHistory
    have ends := trace_invariant (Within limit.assetType keyId span max)
      (fun ledger past tx inv allowed =>
        inv.process has member isSpan isMax below allowed.1 allowed.2) txs _ [] start regular
    exact ends.within now after

namespace Known

/-- A hard limit of a thousand a day. -/
def evaluator : PolicyEvaluator where
  toLowercase := String.map Char.toLower
  spendingPolicy := some {
    limits := [⟨.native "ETH", .perTransaction, "1000", none, true⟩,
      ⟨.native "ETH", .day, "1000", none, true⟩]
    velocityLimits := []
    bypassAddresses := [] }
  addressPolicy := none

def payment (value : String) (now : Instant) : Transaction :=
  ⟨"t", ⟨.native "ETH", value, "0x1234", "key-1", "default", "alice"⟩, now, now⟩

def ledger : Ledger := ⟨.withMaxHistory 10000, 0⟩

end Known

theorem huge_payment_recorded :
    (Known.evaluator.process Known.ledger
      (Known.payment "340282366920938463463374607431768211456" 1)).2 =
        [(Known.payment "340282366920938463463374607431768211456" 1).record] ∧
    amountSince (.native "ETH") "key-1" (1 - seconds 86400)
      [(Known.payment "340282366920938463463374607431768211456" 1).record] = 2 ^ 128 := by
  decide +kernel

theorem Known.keys_payment (value : String) (now : Instant) :
    (Known.payment value now).record.keys = [("ETH", "key:key-1"), ("ETH", "ns:default"),
      ("ETH", "user:alice"), ("ETH", "global")].map some := by
  show [some ("ETH", "key:" ++ "key-1"), some ("ETH", "ns:" ++ "default"),
    some ("ETH", "user:" ++ "alice"), some ("ETH", "global")] = _
  decide +kernel

theorem Known.regular_payment {ledger : Ledger} {value : String} {now : Instant}
    (later : ledger.clock ≤ now)
    (room : ∀ key ∈ [("ETH", "key:key-1"), ("ETH", "ns:default"), ("ETH", "user:alice"),
      ("ETH", "global")], (ledger.tracker.records key).length < ledger.tracker.maxHistory) :
    Regular Known.evaluator ledger (Known.payment value now) := by
  refine ⟨later, Int.le_refl now, ?_, fun _ key named => room key ?_⟩
  · intro policy isPolicy
    cases isPolicy
    rfl
  · rw [Known.keys_payment] at named
    simpa using named

theorem spending_limits_hold_denied :
    amountSince (.native "ETH") "key-1" (3 - seconds 86400)
      (trace Known.evaluator.process Known.ledger
        [Known.payment "600" 1, Known.payment "600" 2]).2 ≤ 1000 := by
  have small : ∀ now, (Known.payment "600" now).Fits := by
    intro now
    refine ⟨600, ?_⟩
    show decimalValue "600" = some 600 ∧ 600 < 2 ^ 128
    decide +kernel
  have regular : Along (fun ledger tx => Regular Known.evaluator ledger tx ∧ tx.Fits)
      Known.evaluator.process Known.ledger [Known.payment "600" 1, Known.payment "600" 2] :=
    ⟨⟨Known.regular_payment (by decide) (by decide +kernel), small 1⟩,
      ⟨Known.regular_payment (by decide +kernel) (by decide +kernel), small 2⟩, trivial⟩
  have isMax : decimalValue (⟨.native "ETH", .day, "1000", none, true⟩ : SpendingLimit).maxValue =
      some 1000 := by
    decide +kernel
  exact (spending_limits_hold rfl (by decide) isMax regular).2 (seconds 86400) rfl (by decide)
    "key-1" 3 (by decide +kernel)

end Hsm.Auth
