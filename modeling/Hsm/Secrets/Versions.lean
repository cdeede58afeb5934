import Hsm.Lib.Clock
import Mathlib.Data.Finset.Max

/-! Which versions of a secret are cleaned up, and how many live ones that leaves. -/

namespace Hsm.Secrets

/-- A version of a secret, without its data. -/
structure SecretVersion where
  version : UInt32
  createdAt : Instant
  destroyed : Bool
  deriving DecidableEq, Repr

def SecretVersion.destroy (version : SecretVersion) : SecretVersion :=
  { version with destroyed := true }

structure VersionPolicy where
  maxVersions : Option UInt32
  minRetention : Option Span
  autoDestroy : Bool

structure VersionManager where
  policy : VersionPolicy

namespace VersionManager

variable (manager : VersionManager) (now : Instant)

def shouldCleanup (i : Nat) (version : SecretVersion) : Bool :=
  match manager.policy.maxVersions with
  | some max =>
    if i ≥ max.toNat then
      match manager.policy.minRetention with
      | some minRet => now - version.createdAt > minRet
      | none => true
    else false
  | none => false

def versionsToCleanup (versions : List SecretVersion) : List UInt32 :=
  (versions.mergeSort fun a b => b.version ≤ a.version).zipIdx.filterMap fun placed =>
    if placed.1.destroyed then none
    else if manager.shouldCleanup now placed.2 placed.1 && manager.policy.autoDestroy then
      some placed.1.version
    else none

def canCleanup (version : SecretVersion) (currentVersion : UInt32) : Bool :=
  if version.version = currentVersion then false
  else if version.destroyed then false
  else
    match manager.policy.minRetention with
    | some minRet => !(now - version.createdAt ≤ minRet)
    | none => true

def Outlived (version : SecretVersion) : Prop :=
  ∀ minRet, manager.policy.minRetention = some minRet → minRet < now - version.createdAt

end VersionManager

def live (versions : List SecretVersion) : List SecretVersion := versions.filter (!·.destroyed)

def newer (version : SecretVersion) (versions : List SecretVersion) : List SecretVersion :=
  versions.filter fun other => version.version < other.version

def destroyAll (numbers : List UInt32) (versions : List SecretVersion) : List SecretVersion :=
  versions.map fun version => if version.version ∈ numbers then version.destroy else version

variable {manager : VersionManager} {now : Instant} {versions : List SecretVersion}
  {version : SecretVersion}

theorem length_newer (descending : versions.Pairwise fun a b => b.version < a.version) {i : Nat}
    (placed : versions[i]? = some version) : (newer version versions).length = i := by
  induction versions generalizing i with
  | nil => cases placed
  | cons head rest ih =>
    obtain ⟨below, descending⟩ := List.pairwise_cons.mp descending
    cases i with
    | zero =>
      cases placed
      rw [newer, List.length_eq_zero_iff, List.filter_eq_nil_iff]
      intro other member
      rcases List.mem_cons.mp member with rfl | member
      · simp
      · simpa using UInt32.le_of_lt (below other member)
    | succ i =>
      have later := ih descending placed
      have first := below version (List.mem_of_getElem? placed)
      simpa [newer, first] using later

theorem mem_versionsToCleanup (distinct : (versions.map SecretVersion.version).Nodup)
    (member : version ∈ versions) :
    version.version ∈ manager.versionsToCleanup now versions ↔ version.destroyed = false ∧
      manager.shouldCleanup now (newer version versions).length version = true ∧
      manager.policy.autoDestroy = true := by
  have perm := List.mergeSort_perm versions fun a b => decide (b.version ≤ a.version)
  have ordered := @List.pairwise_mergeSort SecretVersion (fun a b => decide (b.version ≤ a.version))
    (fun a b c => by simpa using fun first second => UInt32.le_trans second first)
    (fun a b => by simpa using UInt32.le_total _ _) versions
  have apart := List.pairwise_map.mp ((perm.map SecretVersion.version).nodup_iff.mpr distinct)
  have descending := (ordered.and apart).imp fun both =>
    UInt32.lt_of_le_of_ne (of_decide_eq_true both.1) both.2.symm
  -- Numbers are distinct, so the position of a version counts the newer ones.
  obtain ⟨i, placed⟩ := List.mem_iff_getElem?.mp (perm.mem_iff.mpr member)
  rw [newer, ← (perm.filter _).length_eq, ← newer, length_newer descending placed]
  simp only [VersionManager.versionsToCleanup, List.mem_filterMap, Prod.exists,
    List.mem_zipIdx_iff_getElem?]
  constructor
  · rintro ⟨other, j, placedOther, cleaned⟩
    split_ifs at cleaned with destroyed should
    cases List.inj_on_of_nodup_map distinct (perm.mem_iff.mp (List.mem_of_getElem? placedOther))
      member (Option.some.inj cleaned)
    rw [← length_newer descending placed, length_newer descending placedOther]
    simpa [destroyed] using should
  · rintro ⟨usable, should, auto⟩
    exact ⟨version, i, placed, by simp [usable, should, auto]⟩

theorem shouldCleanup_iff {max : UInt32} (limited : manager.policy.maxVersions = some max)
    {i : Nat} : manager.shouldCleanup now i version = true ↔
      max.toNat ≤ i ∧ manager.Outlived now version := by
  rw [VersionManager.shouldCleanup, limited, VersionManager.Outlived]
  cases manager.policy.minRetention <;> simp

theorem live_destroyAll (numbers : List UInt32) : live (destroyAll numbers versions) =
    (live versions).filter fun version => version.version ∉ numbers := by
  induction versions with
  | nil => rfl
  | cons version rest ih =>
    simp only [live, destroyAll, List.map_cons, List.filter_cons] at ih ⊢
    rw [ih]
    split_ifs <;> simp_all [SecretVersion.destroy]

/-- If no newest live version is destroyed, so many stay. -/
theorem le_live_destroyAll {numbers : List UInt32} {count : Nat}
    (newest : ∀ version ∈ live versions,
      (newer version (live versions)).length < count → version.version ∉ numbers) :
    min count (live versions).length ≤ (live (destroyAll numbers versions)).length := by
  rw [live_destroyAll]
  by_cases hit : (live versions).filter (·.version ∈ numbers) = []
  · rw [List.filter_eq_self.mpr (by simpa [List.filter_eq_nil_iff] using hit)]
    exact Nat.min_le_right ..
  · -- All that are newer than the newest destroyed one are left.
    obtain ⟨last, found, greatest⟩ := Finset.exists_max_image
      ((live versions).filter (·.version ∈ numbers)).toFinset (·.version.toNat)
      (List.toFinset_nonempty_iff _ |>.mpr hit)
    simp only [List.mem_toFinset, List.mem_filter, decide_eq_true_eq] at found greatest
    have many : count ≤ (newer last (live versions)).length := by
      by_contra few
      exact newest last found.1 (Nat.lt_of_not_le few) found.2
    refine (Nat.min_le_left ..).trans (many.trans ?_)
    rw [newer, ← List.countP_eq_length_filter, ← List.countP_eq_length_filter]
    refine List.countP_mono_left fun other member after => ?_
    simp only [decide_eq_true_eq] at after ⊢
    exact fun gone => absurd (greatest other ⟨member, gone⟩)
      (Nat.not_le_of_lt (UInt32.lt_iff_toNat_lt.mp after))

/-- The newest live versions stay exactly if enough newer ones than each destroyed are live. -/
theorem cleanup_keeps_live_iff {max : UInt32}
    (limited : manager.policy.maxVersions = some max) (positive : 1 ≤ max.toNat)
    (distinct : (versions.map SecretVersion.version).Nodup) {later : Instant}
    (onward : now ≤ later) :
    (let cleaned := manager.versionsToCleanup now versions
    min max.toNat (live versions).length ≤ (live (destroyAll cleaned versions)).length ∧
      (∀ version ∈ live versions,
        (newer version (live versions)).length < max.toNat → version.version ∉ cleaned) ∧
      ∀ version ∈ versions, version.version ∈ cleaned → version.destroyed = false ∧
        (∀ minRet, manager.policy.minRetention = some minRet →
          minRet ≤ now - version.createdAt) ∧
        ∀ highest ∈ versions, (∀ other ∈ versions, other.version ≤ highest.version) →
          manager.canCleanup later version highest.version = true) ↔
      (manager.policy.autoDestroy = true → ∀ version ∈ live versions,
        manager.Outlived now version → max.toNat ≤ (newer version versions).length →
          max.toNat ≤ (newer version (live versions)).length) := by
  have cleaned := @mem_versionsToCleanup manager now versions
  simp only [shouldCleanup_iff limited] at cleaned
  have isLive : ∀ version ∈ live versions, version ∈ versions ∧ version.destroyed = false := by
    simp [live]
  constructor
  · rintro ⟨-, newest, -⟩ auto version member outlived rank
    by_contra few
    obtain ⟨within, usable⟩ := isLive version member
    exact newest version member (Nat.lt_of_not_le few)
      ((cleaned distinct within).mpr ⟨usable, ⟨rank, outlived⟩, auto⟩)
  · intro enough
    have newest : ∀ version ∈ live versions, (newer version (live versions)).length < max.toNat →
        version.version ∉ manager.versionsToCleanup now versions := by
      intro version member few found
      obtain ⟨-, ⟨rank, outlived⟩, auto⟩ := (cleaned distinct (isLive version member).1).mp found
      exact absurd (enough auto version member outlived rank) (Nat.not_le_of_lt few)
    refine ⟨le_live_destroyAll newest, newest, fun version member found => ?_⟩
    obtain ⟨usable, ⟨rank, outlived⟩, -⟩ := (cleaned distinct member).mp found
    refine ⟨usable, fun minRet given => (outlived minRet given).le, fun highest _ top => ?_⟩
    -- At least one version is newer, so this is not the highest one.
    have below : version.version ≠ highest.version := by
      obtain ⟨other, after⟩ := List.exists_mem_of_length_pos (positive.trans rank)
      simp only [newer, List.mem_filter, decide_eq_true_eq] at after
      rintro same
      exact absurd (top other after.1) (UInt32.not_le.mpr (same ▸ after.2))
    rw [VersionManager.canCleanup, if_neg below, if_neg (by simp [usable])]
    cases given : manager.policy.minRetention with
    | none => rfl
    | some minRet =>
      simp only [Bool.not_eq_true', decide_eq_false_iff_not, Int.not_le]
      exact Int.lt_of_lt_of_le (outlived minRet given) (Int.sub_le_sub_right onward _)

theorem destroyed_version_counted :
    let manager : VersionManager := ⟨⟨some 2, none, true⟩⟩
    let versions : List SecretVersion := [⟨3, 0, false⟩, ⟨2, 0, true⟩, ⟨1, 0, false⟩]
    manager.versionsToCleanup 0 versions = [1] ∧ (live versions).length = 2 ∧
      (live (destroyAll [1] versions)).length = 1 := by
  refine ⟨?_, by decide⟩
  rw [VersionManager.versionsToCleanup, List.mergeSort_of_pairwise (by decide)]
  decide

theorem cleanup_keeps_live_two :
    min 1 (live [⟨2, 0, false⟩, ⟨1, 0, false⟩]).length ≤ (live (destroyAll
      (VersionManager.versionsToCleanup ⟨⟨some 1, none, true⟩⟩ 0 [⟨2, 0, false⟩, ⟨1, 0, false⟩])
      [⟨2, 0, false⟩, ⟨1, 0, false⟩])).length :=
  ((@cleanup_keeps_live_iff ⟨⟨some 1, none, true⟩⟩ 0 [⟨2, 0, false⟩, ⟨1, 0, false⟩] 1 rfl
    (by decide) (by decide) 0 (Int.le_refl 0)).mpr fun _ _ _ _ rank => rank).1

end Hsm.Secrets
