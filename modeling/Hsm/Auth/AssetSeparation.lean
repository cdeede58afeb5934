import Hsm.Auth.SpendingSafety

/-! What recording a transaction of one asset does to the spending of another. -/

namespace Hsm.Auth

def AssetType.ofErc20 (toLowercase : String → String) (chainId : UInt64) (contract : String) :
    AssetType :=
  .erc20 chainId (toLowercase contract)

namespace SpendingTracker

section

variable (tracker : SpendingTracker) (asset : AssetType)

def getSpending (key : Option TrackerKey) (window : TimeWindow) (now : Instant) :
    Option SpendingAggregate :=
  key.map fun key => tracker.getAggregate key window now

def getSpendingForKey (keyId : String) := getSpending tracker (TrackerKey.forKey asset keyId)

def getSpendingForNamespace (ns : String) := getSpending tracker (TrackerKey.forNamespace asset ns)

def getSpendingForUser (user : String) := getSpending tracker (TrackerKey.forUser asset user)

def getGlobalSpending := getSpending tracker (TrackerKey.global asset)

end

/-- Spending of the first asset changes nothing of the second. -/
structure Separates (first second : AssetType) : Prop where
  keys : ∀ scope, (TrackerKey.forScope first scope).isSome ∧
    (TrackerKey.forScope second scope).isSome
  spending : ∀ maxHistory history (tracker after : SpendingTracker) (entry : TransactionRecord)
      window now,
    List.foldlM record (withMaxHistory maxHistory) history = some tracker →
    entry.assetType = first → tracker.record entry = some after →
    (∀ keyId, after.getSpendingForKey second keyId window now =
      tracker.getSpendingForKey second keyId window now) ∧
    (∀ ns, after.getSpendingForNamespace second ns window now =
      tracker.getSpendingForNamespace second ns window now) ∧
    (∀ user, after.getSpendingForUser second user window now =
      tracker.getSpendingForUser second user window now) ∧
    after.getGlobalSpending second window now = tracker.getGlobalSpending second window now

theorem record_others {tracker after : SpendingTracker} {entry : TransactionRecord}
    (trimmed : tracker.Trimmed) (recorded : tracker.record entry = some after) :
    after.Trimmed ∧ ∀ asset scope, entry.assetType.display ≠ some asset →
      after.records (asset, scope) = tracker.records (asset, scope) := by
  cases shown : entry.assetType.display with
  | none => simp [record, TrackerKey.forKey, TrackerKey.forScope, shown] at recorded
  | some first =>
    simp only [record, TrackerKey.forKey, TrackerKey.forNamespace, TrackerKey.forUser,
      TrackerKey.global, TrackerKey.forScope, shown, Option.map_some, Option.bind_eq_bind,
      Option.bind_some, Option.pure_def, Option.some.injEq] at recorded
    subst recorded
    -- The four keys of a transaction share the asset and differ in the scope.
    have step := fun {tracker : SpendingTracker} (trimmed : tracker.Trimmed) scope =>
      trimmed.recordForKey (first, scope) entry
    have byKey := step trimmed ("key:" ++ entry.keyId)
    have byNamespace := step byKey ("ns:" ++ entry.ns)
    have byUser := step byNamespace ("user:" ++ entry.user)
    refine ⟨step byUser "global", fun asset scope apart => ?_⟩
    have others : ∀ place : String, (first, place) ≠ (asset, scope) := by
      rintro place ⟨⟩
      exact apart rfl
    rw [records_recordForKey_of_ne byUser (others _),
      records_recordForKey_of_ne byNamespace (others _),
      records_recordForKey_of_ne byKey (others _), records_recordForKey_of_ne trimmed (others _)]

theorem Trimmed.history {history : List TransactionRecord} {tracker after : SpendingTracker}
    (trimmed : tracker.Trimmed) (recorded : history.foldlM record tracker = some after) :
    after.Trimmed := by
  induction history generalizing tracker with
  | nil =>
    cases recorded
    exact trimmed
  | cons entry history ih =>
    rw [List.foldlM_cons, Option.bind_eq_bind, Option.bind_eq_some_iff] at recorded
    obtain ⟨next, first, rest⟩ := recorded
    exact ih (record_others trimmed first).1 rest

/-- Assets are tracked separately exactly if their displayed forms exist and differ. -/
theorem separates_iff_display (first second : AssetType) :
    Separates first second ↔
      ∃ a b, first.display = some a ∧ second.display = some b ∧ a ≠ b := by
  constructor
  · intro separates
    obtain ⟨isFirst, isSecond⟩ := separates.keys "global"
    simp only [TrackerKey.forScope, Option.isSome_map, Option.isSome_iff_exists] at isFirst isSecond
    obtain ⟨⟨a, showsFirst⟩, ⟨b, showsSecond⟩⟩ := And.intro isFirst isSecond
    refine ⟨a, b, showsFirst, showsSecond, ?_⟩
    rintro rfl
    -- One transaction of the first asset is counted for the second.
    let entry : TransactionRecord := ⟨"", 0, first, "1", "", "", "", ""⟩
    obtain ⟨after, recorded⟩ : ∃ after, (withMaxHistory 1).record entry = some after := by
      simp [record, TrackerKey.forKey, TrackerKey.forNamespace, TrackerKey.forUser,
        TrackerKey.global, TrackerKey.forScope, entry, showsFirst]
    have kept := (separates.spending 1 [] _ after entry .perTransaction 0 rfl rfl recorded).2.2.2
    have empty : ∀ key, (withMaxHistory 1).records key = [] := fun key => by
      simp [records, withMaxHistory]
    have counted := (records_record recorded (fun key => by simp [empty key])
      (fun key _ => by rw [empty key]; decide)).2 (a, "global")
    have parsed : parseU128 "1" = some 1 := by decide +kernel
    simp [TransactionRecord.keys, TrackerKey.global, TrackerKey.forScope, entry, showsFirst,
      empty] at counted
    simp [getGlobalSpending, getSpending, TrackerKey.global, TrackerKey.forScope, showsSecond,
      getAggregate, counted, parsed, empty, TimeWindow.windowStart, TimeWindow.duration,
      SpendingAggregate.add] at kept
  · rintro ⟨a, b, showsFirst, showsSecond, apart⟩
    refine ⟨fun scope => by simp [TrackerKey.forScope, showsFirst, showsSecond], ?_⟩
    rintro maxHistory history tracker after entry window now reached rfl recorded
    have trimmed : tracker.Trimmed :=
      Trimmed.history (fun key => by simp [records, withMaxHistory]) reached
    have same : ∀ scope, after.getSpending (TrackerKey.forScope second scope) window now =
        tracker.getSpending (TrackerKey.forScope second scope) window now := by
      intro scope
      have kept := (record_others trimmed recorded).2 b scope
        (by rw [showsFirst]; simpa using apart)
      simp only [getSpending, TrackerKey.forScope, showsSecond, Option.map_some, getAggregate, kept]
    exact ⟨fun _ => same _, fun _ => same _, fun _ => same _, same _⟩

theorem contracts_share_spending :
    let first := AssetType.ofErc20 id 1 "0xaaaaaa1"
    let second := AssetType.ofErc20 id 1 "0xaaaaaa2"
    first.matchesAsset second = false ∧
      (((withMaxHistory 9).record ⟨"t", 0, first, "5", "r", "k", "n", "u"⟩).bind fun tracker =>
        (tracker.getGlobalSpending second .day 0).map (·.totalValue)) = some 5 ∧
      TrackerKey.global (AssetType.ofErc20 id 1 "0xaaaaaé") = none := by
  decide +kernel

end SpendingTracker

end Hsm.Auth
