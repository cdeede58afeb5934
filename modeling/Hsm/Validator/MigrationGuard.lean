import Hsm.Validator.Migration

/-! Which requests a database grants, and when a migrated database grants no more of them. -/

namespace Hsm

namespace Trees

/-- A vote is a repeat, or conflicts with nothing. -/
def GrantsVote (trees : Trees) (publicKey : Bytes) (vote : Vote) : Prop :=
  (∃ other, trees.RecordsVote publicKey other ∧ other.target = vote.target ∧
      other.root = vote.root) ∨
    (∀ other, trees.RecordsVote publicKey other → vote.Apart other) ∧
      (∀ bound, trees.minimum publicKey .sourceEpoch = some bound → bound ≤ vote.source) ∧
      ∀ bound, trees.minimum publicKey .targetEpoch = some bound → bound < vote.target

/-- A proposal is a repeat, or for a free slot. -/
def GrantsProposal (trees : Trees) (publicKey : Bytes) (proposal : Proposal) : Prop :=
  trees.RecordsProposal publicKey proposal ∨
    (∀ other, trees.RecordsProposal publicKey other → proposal.slot ≠ other.slot) ∧
      ∀ bound, trees.minimum publicKey .slot = some bound → bound < proposal.slot

end Trees

theorem error_iff {ε : Type} {outcome : Except ε Unit} : (∃ e, outcome = .error e) ↔
    outcome ≠ .ok () := by
  cases outcome <;> simp

namespace SlashingProtectionDb

variable {db : SlashingProtectionDb} {env : Env} {publicKey : Bytes} {data : ValidatorData}

theorem checkAndRecordAttestation_ok_iff (wellFormed : db.trees.WellFormed)
    (registered : db.trees.Registered publicKey data) (healthy : env.Healthy) (vote : Vote) :
    (db.checkAndRecordAttestation env publicKey vote.source vote.target vote.root).2 = .ok () ↔
      db.trees.GrantsVote publicKey vote := by
  constructor
  · intro granted
    rcases db.checkAndRecordAttestation_cases env publicKey vote.source vote.target vote.root with
      ⟨-, e, refused⟩ | ⟨-, repeated⟩ | ⟨validator, fresh, -⟩
    · rw [refused] at granted
      cases granted
    · obtain ⟨-, existing, found, root⟩ := Trees.checkAttestation_repeated repeated
      obtain ⟨-, data, -, read, target⟩ := wellFormed.vote_of_get found
      cases read
      rw [← target] at found
      exact .inl ⟨existing.vote, ⟨existing, found, rfl⟩, target, root⟩
    · obtain ⟨entry, absent, ⟨sources, targets⟩, compatible⟩ := Trees.checkAttestation_fresh fresh
      refine .inr ⟨?_, ?_, ?_⟩
      · rintro other ⟨existing, found, rfl⟩
        obtain ⟨read, same, apart⟩ :=
          compatible _ _ (recordKeyPrefix_recordKey publicKey existing.vote.target) found
        cases same
        refine ⟨fun target => ?_, apart⟩
        rw [← target, absent] at found
        cases found
      · intro bound stored
        rw [Trees.minimum_of_registered entry] at stored
        exact sources bound stored
      · intro bound stored
        rw [Trees.minimum_of_registered entry] at stored
        exact targets bound stored
  · rintro (⟨other, ⟨existing, found, rfl⟩, target, root⟩ | ⟨apart, sources, targets⟩)
    · rw [target] at found
      have repeated : db.trees.checkAttestation env publicKey vote.source vote.target vote.root =
          .ok .repeated := Trees.checkAttestation_of_recorded healthy registered found root
      simp [checkAndRecordAttestation, repeated]
    · simp only [Trees.minimum_of_registered registered] at sources targets
      have fresh : db.trees.checkAttestation env publicKey vote.source vote.target vote.root =
          .ok (.fresh data) :=
        Trees.checkAttestation_of_allowed healthy registered (wellFormed.absent_of_apart apart)
          ⟨sources, targets⟩ (wellFormed.compatible_of_apart registered.length_eq apart)
      rw [db.checkAndRecordAttestation_of_fresh healthy fresh]

theorem checkAndRecordBlock_ok_iff (wellFormed : db.trees.WellFormed)
    (registered : db.trees.Registered publicKey data) (healthy : env.Healthy)
    (proposal : Proposal) :
    (db.checkAndRecordBlock env publicKey proposal.slot proposal.root).2 = .ok () ↔
      db.trees.GrantsProposal publicKey proposal := by
  constructor
  · intro granted
    rcases db.checkAndRecordBlock_cases env publicKey proposal.slot proposal.root with
      ⟨-, e, refused⟩ | ⟨-, repeated⟩ | ⟨validator, fresh, -⟩
    · rw [refused] at granted
      cases granted
    · obtain ⟨-, existing, found, root⟩ := Trees.checkBlock_repeated repeated
      exact .inl ⟨existing, found, root⟩
    · obtain ⟨entry, absent, allowed⟩ := Trees.checkBlock_fresh fresh
      refine .inr ⟨?_, ?_⟩
      · rintro other ⟨existing, found, -⟩ slot
        rw [← slot, absent] at found
        cases found
      · intro bound stored
        rw [Trees.minimum_of_registered entry] at stored
        exact allowed bound stored
  · rintro (⟨existing, found, root⟩ | ⟨apart, allowed⟩)
    · have repeated := Trees.checkBlock_of_recorded healthy registered found root
      simp [checkAndRecordBlock, repeated]
    · simp only [Trees.minimum_of_registered registered] at allowed
      have fresh : db.trees.checkBlock env publicKey proposal.slot proposal.root =
          .ok (.fresh data) :=
        Trees.checkBlock_of_allowed healthy registered (wellFormed.absent_of_slot apart) allowed
      rw [db.checkAndRecordBlock_of_fresh healthy fresh]

/-- What the first refuses, the second refuses too. -/
def KeepsRefusals (first second : SlashingProtectionDb) (before after : Env) (publicKey : Bytes) :
    Prop :=
  (∀ vote : Vote,
    (∃ e, (first.checkAndRecordAttestation before publicKey vote.source vote.target vote.root).2 =
      .error e) →
    ∃ e, (second.checkAndRecordAttestation after publicKey vote.source vote.target vote.root).2 =
      .error e) ∧
  ∀ proposal : Proposal,
    (∃ e, (first.checkAndRecordBlock before publicKey proposal.slot proposal.root).2 = .error e) →
    ∃ e, (second.checkAndRecordBlock after publicKey proposal.slot proposal.root).2 = .error e

theorem keepsRefusals_iff {first second : SlashingProtectionDb} {before after : Env}
    {other : ValidatorData} (formed : first.trees.WellFormed) (formedToo : second.trees.WellFormed)
    (registered : first.trees.Registered publicKey data)
    (registeredToo : second.trees.Registered publicKey other) (healthy : before.Healthy)
    (healthyToo : after.Healthy) :
    first.KeepsRefusals second before after publicKey ↔
      (∀ vote, second.trees.GrantsVote publicKey vote → first.trees.GrantsVote publicKey vote) ∧
        ∀ proposal, second.trees.GrantsProposal publicKey proposal →
          first.trees.GrantsProposal publicKey proposal := by
  simp only [KeepsRefusals, error_iff, ne_eq, not_imp_not,
    checkAndRecordAttestation_ok_iff formed registered healthy,
    checkAndRecordAttestation_ok_iff formedToo registeredToo healthyToo,
    checkAndRecordBlock_ok_iff formed registered healthy,
    checkAndRecordBlock_ok_iff formedToo registeredToo healthyToo]

end SlashingProtectionDb

def maxU64 : UInt64 := 0xffffffffffffffff

/-- The minima of a validator say no more than its records. -/
structure Trees.MinimaCovered (trees : Trees) (publicKey : Bytes) : Prop where
  votes : match (trees.exported publicKey).maximum .sourceEpoch,
      (trees.exported publicKey).maximum .targetEpoch with
    | some source, some target => target = maxU64 ∨
        NotAbove (trees.minimum publicKey .sourceEpoch) (some source) ∧
          NotAbove (trees.minimum publicKey .targetEpoch) (some target)
    | _, _ => NotAbove (trees.minimum publicKey .sourceEpoch) (some 0) ∧
        trees.minimum publicKey .targetEpoch = none
  blocks : match (trees.exported publicKey).maximum .slot with
    | some slot => slot = maxU64 ∨ NotAbove (trees.minimum publicKey .slot) (some slot)
    | none => trees.minimum publicKey .slot = none

theorem InterchangeData.maximum_eq_none {entry : InterchangeData} {bound : Bound} :
    entry.maximum bound = none ↔ entry.values bound = [] := by
  constructor
  · intro unlisted
    cases listed : entry.values bound with
    | nil => rfl
    | cons value rest =>
      have member : value ∈ entry.values bound := by simp [listed]
      obtain ⟨m, largest, -⟩ := entry.maximum_covers bound member
      rw [unlisted] at largest
      cases largest
  · intro empty
    simp [maximum, empty]

namespace Trees.Migrated

variable {first second : Trees} (migrated : first.Migrated second)
  (wellFormed : first.WellFormed) {publicKey : Bytes} (known : first.Knows publicKey)

include migrated wellFormed known

theorem grantsVote_of_unlisted (unlisted : (first.exported publicKey).votes = []) (vote : Vote) :
    second.GrantsVote publicKey vote := by
  have unset : ∀ bound, bound ≠ .slot → second.minimum publicKey bound = none := by
    intro bound kind
    rw [migrated.minima publicKey known, InterchangeData.maximum_eq_none]
    cases bound <;> simp_all [InterchangeData.values]
  refine .inr ⟨fun other recorded => ?_, ?_, ?_⟩
  · rw [migrated.votes, ← wellFormed.mem_exported_votes known, unlisted] at recorded
    cases recorded
  · simp [unset]
  · simp [unset]

theorem grantsVote_of_above {source target : Epoch}
    (sources : (first.exported publicKey).maximum .sourceEpoch = some source)
    (targets : (first.exported publicKey).maximum .targetEpoch = some target) {vote : Vote}
    (notBelow : source ≤ vote.source) (above : target < vote.target) :
    second.GrantsVote publicKey vote := by
  refine .inr ⟨fun other recorded => ?_, fun bound stored => ?_, fun bound stored => ?_⟩
  · -- Every recorded vote is covered by the maxima on both sides.
    rw [migrated.votes, ← wellFormed.mem_exported_votes known] at recorded
    obtain ⟨s, largestSource, belowSource⟩ := (first.exported publicKey).maximum_covers
      .sourceEpoch (List.mem_map_of_mem recorded)
    obtain ⟨t, largestTarget, belowTarget⟩ := (first.exported publicKey).maximum_covers
      .targetEpoch (List.mem_map_of_mem recorded)
    rw [sources] at largestSource
    rw [targets] at largestTarget
    cases largestSource
    cases largestTarget
    refine ⟨by grind, ?_, ?_⟩
    · rintro ⟨earlier, -⟩
      grind
    · rintro ⟨-, later⟩
      grind
  · rw [migrated.minima publicKey known, sources] at stored
    cases stored
    exact notBelow
  · rw [migrated.minima publicKey known, targets] at stored
    cases stored
    exact above

omit wellFormed known in
theorem grantsVote_of_minima {vote : Vote} (granted : second.GrantsVote publicKey vote)
    (allowed : (∀ bound, second.minimum publicKey .sourceEpoch = some bound → bound ≤ vote.source) →
      (∀ bound, second.minimum publicKey .targetEpoch = some bound → bound < vote.target) →
      (∀ bound, first.minimum publicKey .sourceEpoch = some bound → bound ≤ vote.source) ∧
        ∀ bound, first.minimum publicKey .targetEpoch = some bound → bound < vote.target) :
    first.GrantsVote publicKey vote := by
  rcases granted with ⟨other, recorded, same⟩ | ⟨apart, sources, targets⟩
  · exact .inl ⟨other, (migrated.votes publicKey other).mp recorded, same⟩
  · refine .inr ⟨fun other recorded => ?_, allowed sources targets⟩
    exact apart other ((migrated.votes publicKey other).mpr recorded)

theorem votes_kept_of_unlisted (unlisted : (first.exported publicKey).votes = []) :
    (∀ vote, second.GrantsVote publicKey vote → first.GrantsVote publicKey vote) ↔
      NotAbove (first.minimum publicKey .sourceEpoch) (some 0) ∧
        first.minimum publicKey .targetEpoch = none := by
  constructor
  · -- The smallest vote of all is granted by the second database.
    intro kept
    rcases kept ⟨0, 0, .filled 0⟩ (migrated.grantsVote_of_unlisted wellFormed known unlisted _) with
      ⟨other, recorded, -⟩ | ⟨-, sources, targets⟩
    · rw [← wellFormed.mem_exported_votes known, unlisted] at recorded
      cases recorded
    · refine ⟨?_, ?_⟩
      · rintro l isSource h ⟨⟩
        exact sources l isSource
      · cases stored : first.minimum publicKey .targetEpoch with
        | none => rfl
        | some bound => exact absurd (targets bound stored) (by grind)
  · rintro ⟨sources, target⟩ vote granted
    refine migrated.grantsVote_of_minima granted fun _ _ => ⟨fun bound stored => ?_, ?_⟩
    · have zero := sources bound stored 0 rfl
      grind
    · simp [target]

theorem votes_kept_of_listed {source target : Epoch}
    (sources : (first.exported publicKey).maximum .sourceEpoch = some source)
    (targets : (first.exported publicKey).maximum .targetEpoch = some target) :
    (∀ vote, second.GrantsVote publicKey vote → first.GrantsVote publicKey vote) ↔
      (target = maxU64 ∨ NotAbove (first.minimum publicKey .sourceEpoch) (some source) ∧
        NotAbove (first.minimum publicKey .targetEpoch) (some target)) := by
  constructor
  · -- The next target epoch, if there is one, is granted by the second database.
    intro kept
    by_cases last : target = maxU64
    · exact .inl last
    · right
      have next : target < target + 1 := by
        unfold maxU64 at last
        grind
      rcases kept ⟨source, target + 1, .filled 0⟩
          (migrated.grantsVote_of_above wellFormed known sources targets (UInt64.le_refl _) next) with
        ⟨other, recorded, same, -⟩ | ⟨-, allowedSource, allowedTarget⟩
      · rw [← wellFormed.mem_exported_votes known] at recorded
        obtain ⟨m, largest, below⟩ := (first.exported publicKey).maximum_covers .targetEpoch
          (List.mem_map_of_mem recorded)
        rw [targets] at largest
        cases largest
        simp only at same
        grind
      · constructor
        · rintro l isSource h ⟨⟩
          exact allowedSource l isSource
        · rintro l isTarget h ⟨⟩
          have allowed := allowedTarget l isTarget
          simp only at allowed
          grind
  · rintro covered vote granted
    refine migrated.grantsVote_of_minima granted fun secondSource secondTarget => ?_
    have notBelow := secondSource source ((migrated.minima publicKey known _).trans sources)
    have above := secondTarget target ((migrated.minima publicKey known _).trans targets)
    rcases covered with rfl | ⟨coveredSource, coveredTarget⟩
    · unfold maxU64 at above
      grind
    · refine ⟨fun bound stored => ?_, fun bound stored => ?_⟩
      · exact UInt64.le_trans (coveredSource bound stored source rfl) notBelow
      · exact UInt64.lt_of_le_of_lt (coveredTarget bound stored target rfl) above

theorem proposals_kept_iff :
    (∀ proposal, second.GrantsProposal publicKey proposal →
      first.GrantsProposal publicKey proposal) ↔
      match (first.exported publicKey).maximum .slot with
      | some slot => slot = maxU64 ∨ NotAbove (first.minimum publicKey .slot) (some slot)
      | none => first.minimum publicKey .slot = none := by
  have minimum := migrated.minima publicKey known .slot
  have carried : ∀ {proposal : Proposal}, second.GrantsProposal publicKey proposal →
      ((∀ bound, second.minimum publicKey .slot = some bound → bound < proposal.slot) →
        ∀ bound, first.minimum publicKey .slot = some bound → bound < proposal.slot) →
      first.GrantsProposal publicKey proposal := by
    rintro proposal (recorded | ⟨apart, allowed⟩) implies
    · exact .inl ((migrated.proposals publicKey proposal).mp recorded)
    · refine .inr ⟨fun other recorded => ?_, implies allowed⟩
      exact apart other ((migrated.proposals publicKey other).mpr recorded)
  have covered : ∀ {proposal : Proposal}, first.RecordsProposal publicKey proposal →
      ∃ m, (first.exported publicKey).maximum .slot = some m ∧ proposal.slot ≤ m := by
    intro proposal recorded
    rw [← wellFormed.mem_exported_proposals known] at recorded
    exact (first.exported publicKey).maximum_covers .slot (List.mem_map_of_mem recorded)
  cases largest : (first.exported publicKey).maximum .slot with
  | none =>
    rw [largest] at minimum
    simp only
    have unrecorded : ∀ proposal, ¬ first.RecordsProposal publicKey proposal := by
      intro proposal recorded
      obtain ⟨m, some, -⟩ := covered recorded
      rw [largest] at some
      cases some
    constructor
    · -- The first slot of all is granted by the second database.
      intro kept
      rcases kept ⟨0, .filled 0⟩ (.inr ⟨fun other recorded =>
        absurd ((migrated.proposals publicKey other).mp recorded) (unrecorded other),
        by simp [minimum]⟩) with recorded | ⟨-, allowed⟩
      · exact absurd recorded (unrecorded _)
      · cases stored : first.minimum publicKey .slot with
        | none => rfl
        | some bound => exact absurd (allowed bound stored) (by grind)
    · intro unset proposal granted
      exact carried granted (by simp [unset])
  | some slot =>
    rw [largest] at minimum
    simp only
    have below : ∀ other, first.RecordsProposal publicKey other → other.slot ≤ slot := by
      intro other recorded
      obtain ⟨m, some, below⟩ := covered recorded
      rw [largest] at some
      cases some
      exact below
    constructor
    · -- The next slot, if there is one, is granted by the second database.
      intro kept
      by_cases last : slot = maxU64
      · exact .inl last
      · right
        have next : slot < slot + 1 := by
          unfold maxU64 at last
          grind
        rcases kept ⟨slot + 1, .filled 0⟩ (.inr ⟨fun other recorded => by
          have earlier := below other ((migrated.proposals publicKey other).mp recorded)
          simp only
          grind, by simp only [minimum]; grind⟩) with recorded | ⟨-, allowed⟩
        · have earlier := below _ recorded
          simp only at earlier
          grind
        · rintro l isSlot h ⟨⟩
          have above := allowed l isSlot
          simp only at above
          grind
    · rintro low proposal granted
      refine carried granted fun allowed bound stored => ?_
      have above := allowed slot minimum
      rcases low with rfl | low
      · unfold maxU64 at above
        grind
      · exact UInt64.lt_of_le_of_lt (low bound stored slot rfl) above

theorem votes_kept_iff :
    (∀ vote, second.GrantsVote publicKey vote → first.GrantsVote publicKey vote) ↔
      match (first.exported publicKey).maximum .sourceEpoch,
        (first.exported publicKey).maximum .targetEpoch with
      | some source, some target => target = maxU64 ∨
          NotAbove (first.minimum publicKey .sourceEpoch) (some source) ∧
            NotAbove (first.minimum publicKey .targetEpoch) (some target)
      | _, _ => NotAbove (first.minimum publicKey .sourceEpoch) (some 0) ∧
          first.minimum publicKey .targetEpoch = none := by
  cases listed : (first.exported publicKey).votes with
  | nil =>
    have noSource : (first.exported publicKey).maximum .sourceEpoch = none :=
      InterchangeData.maximum_eq_none.mpr (by simp [InterchangeData.values, listed])
    simp only [noSource]
    exact migrated.votes_kept_of_unlisted wellFormed known listed
  | cons vote rest =>
    have member : vote ∈ (first.exported publicKey).votes := by simp [listed]
    obtain ⟨source, sources, -⟩ := (first.exported publicKey).maximum_covers .sourceEpoch
      (List.mem_map_of_mem member)
    obtain ⟨target, targets, -⟩ := (first.exported publicKey).maximum_covers .targetEpoch
      (List.mem_map_of_mem member)
    simp only [sources, targets]
    exact migrated.votes_kept_of_listed wellFormed known sources targets

end Trees.Migrated

/-- A migrated database refuses all the original does exactly if minima are in the records. -/
theorem migration_keeps_refusals_iff (db : SlashingProtectionDb) (reachable : db.Reachable)
    (env : Env) (healthy : env.Healthy) (envs : Nat → Env)
    (allHealthy : ∀ call, (envs call).Healthy) (genesisValidatorsRoot : String)
    (file : Eip3076Interchange)
    (exported : Eip3076Interchange.export db env genesisValidatorsRoot none = .ok file) :
    (∀ publicKey data, db.trees.Registered publicKey data →
      ∀ before after : Env, before.Healthy → after.Healthy →
        db.KeepsRefusals (file.import envs .new).1 before after publicKey) ↔
      ∀ publicKey data, db.trees.Registered publicKey data → db.trees.MinimaCovered publicKey := by
  have wellFormed := reachable.wellFormed
  obtain ⟨-, -, -, migrated⟩ := import_export wellFormed healthy allHealthy exported
  have decided : ∀ {publicKey data before after}, db.trees.Registered publicKey data →
      before.Healthy → after.Healthy →
      (db.KeepsRefusals (file.import envs .new).1 before after publicKey ↔
        db.trees.MinimaCovered publicKey) := by
    intro publicKey data before after registered beforeHealthy afterHealthy
    obtain ⟨other, registeredToo⟩ :=
      migrated.wellFormed.registered ((migrated.knows publicKey).mpr registered.knows)
    have trees := SlashingProtectionDb.keepsRefusals_iff wellFormed migrated.wellFormed registered
      registeredToo beforeHealthy afterHealthy
    have votes := migrated.votes_kept_iff wellFormed registered.knows
    have proposals := migrated.proposals_kept_iff wellFormed registered.knows
    refine trees.trans ?_
    exact ⟨fun kept => ⟨votes.mp kept.1, proposals.mp kept.2⟩,
      fun covered => ⟨votes.mpr covered.votes, proposals.mpr covered.blocks⟩⟩
  constructor
  · intro kept publicKey data registered
    exact (decided registered healthy healthy).mp
      (kept publicKey data registered env env healthy healthy)
  · intro covered publicKey data registered before after beforeHealthy afterHealthy
    exact (decided registered beforeHealthy afterHealthy).mpr (covered publicKey data registered)

def Sample.skipping : SlashingProtectionDb :=
  (SlashingProtectionDb.run [asks .registerValidator, votes 5 20 1, importsVote 10 15 2]).1

theorem migration_loses_minimum :
    Sample.skipping.Reachable ∧
      (Sample.skipping.checkAndRecordAttestation Sample.env Sample.key 7 30 (.filled 3)).2 =
        .error (.sourceEpochTooLow 7 10) ∧
      ((Eip3076Interchange.export Sample.skipping Sample.env "0x00" none).map fun file =>
        ((file.import (fun _ => Sample.env) .new).1.checkAndRecordAttestation Sample.env Sample.key
          7 30 (.filled 3)).2) = .ok (.ok ()) := by
  refine ⟨⟨_, ?_, rfl⟩, ?_⟩
  · simp [Sample.asks, Sample.votes, Sample.importsVote, Event.Under, Env.Healthy, Sample.env]
  · decide +kernel

theorem migration_keeps_refusals_iff_sample :
    ∃ file, Eip3076Interchange.export Sample.migrating Sample.env "0x00" none = .ok file ∧
      ((∀ publicKey data, Sample.migrating.trees.Registered publicKey data →
        ∀ before after : Env, before.Healthy → after.Healthy →
          Sample.migrating.KeepsRefusals (file.import (fun _ => Sample.env) .new).1 before after
            publicKey) ↔
        ∀ publicKey data, Sample.migrating.trees.Registered publicKey data →
          Sample.migrating.trees.MinimaCovered publicKey) := by
  have healthy : Sample.env.Healthy := rfl
  have exported := export_wellFormed Sample.migrating_reachable.wellFormed healthy "0x00"
  exact ⟨_, exported, migration_keeps_refusals_iff Sample.migrating Sample.migrating_reachable
    Sample.env healthy (fun _ => Sample.env) (fun _ => rfl) "0x00" _ exported⟩

end Hsm
