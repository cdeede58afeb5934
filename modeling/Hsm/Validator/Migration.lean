import Hsm.Validator.CleanImport

/-! Moving a database through an interchange file: what survives, and when protection survives. -/

namespace Hsm

@[simp] theorem parseHexPubkey_toHex (publicKey : BlsPublicKey) :
    parseHexPubkey publicKey.toHex = .ok publicKey.bytes := by
  simp [parseHexPubkey, BlsPublicKey.toHex, stripHexMarker, stripPrefix_append]

@[simp] theorem parseSigningRoot_toHex (root : SigningRoot) :
    parseSigningRoot root.toHex = .ok root := by
  simp [parseSigningRoot, SigningRoot.toHex, stripHexMarker, stripPrefix_append]

@[simp] theorem parse_signedAttestation (source target : Epoch) (root : SigningRoot) :
    (⟨u64ToString source, u64ToString target, some root.toHex⟩ : SignedAttestation).parse =
      .ok ⟨source, target, root⟩ := by
  simp [SignedAttestation.parse, parseField, entryRoot, Bind.bind, Except.bind, pure, Except.pure]

@[simp] theorem parse_signedBlock (slot : Slot) (root : SigningRoot) :
    (⟨u64ToString slot, some root.toHex⟩ : SignedBlock).parse = .ok ⟨slot, root⟩ := by
  simp [SignedBlock.parse, parseField, entryRoot, Bind.bind, Except.bind, pure, Except.pure]

theorem readRecords_of_readable {α β : Type} {env : Env} (healthy : env.Healthy)
    (toRecord : α → β) (index : Nat) (items : List (Bytes × Stored α))
    (readable : ∀ item ∈ items, ∃ data, item.2 = .readable data) :
    SlashingProtectionDb.readRecords env toRecord index items =
      .ok ((items.filterMap (·.2.decode.toOption)).map toRecord) := by
  induction items generalizing index with
  | nil => rfl
  | cons item rest ih =>
    obtain ⟨key, value⟩ := item
    obtain ⟨data, read⟩ := readable (key, value) (by simp)
    simp only at read
    subst read
    have clear : env.io.scanFault index = none := by
      simp [show env.io = {} from healthy, SledFaults.scanFault]
    have rests := ih (index + 1) fun other member => readable other (by simp [member])
    simp [SlashingProtectionDb.readRecords, clear, Stored.decode, rests, Except.map,
      Except.toOption]

theorem readKeys_healthy {α : Type} {env : Env} (healthy : env.Healthy) (index : Nat)
    (items : List (Bytes × α)) :
    SlashingProtectionDb.readKeys env index items = .ok (items.map fun item => ⟨item.1⟩) := by
  induction items generalizing index with
  | nil => rfl
  | cons item rest ih =>
    have clear : env.io.scanFault index = none := by
      simp [show env.io = {} from healthy, SledFaults.scanFault]
    simp [SlashingProtectionDb.readKeys, clear, ih, Except.map]

namespace Trees

def storedVotes (trees : Trees) (publicKey : Bytes) : List AttestationData :=
  (trees.attestations.scanPrefix (attestationKeyPrefix publicKey)).filterMap (·.2.decode.toOption)

def storedBlocks (trees : Trees) (publicKey : Bytes) : List BlockData :=
  (trees.blocks.scanPrefix (blockKeyPrefix publicKey)).filterMap (·.2.decode.toOption)

def exported (trees : Trees) (publicKey : Bytes) : InterchangeData where
  pubkey := (⟨publicKey⟩ : BlsPublicKey).toHex
  signedBlocks := (trees.storedBlocks publicKey).map fun data =>
    ⟨u64ToString data.slot, some data.signingRoot.toHex⟩
  signedAttestations := (trees.storedVotes publicKey).map fun data =>
    ⟨u64ToString data.sourceEpoch, u64ToString data.targetEpoch, some data.signingRoot.toHex⟩

variable {trees : Trees} {publicKey : Bytes}

@[simp] theorem not_knows_empty : ¬ empty.Knows publicKey := by
  simp [Knows, empty, ValidatorTable.empty]

variable {vote : Vote}

@[simp] theorem not_recordsVote_empty : ¬ empty.RecordsVote publicKey vote := by
  simp [RecordsVote, empty]

variable {proposal : Proposal}

@[simp] theorem not_recordsProposal_empty :
    ¬ empty.RecordsProposal publicKey proposal := by
  simp [RecordsProposal, empty]

theorem WellFormed.knows_of_recordsVote (wellFormed : trees.WellFormed)
    (recorded : trees.RecordsVote publicKey vote) : trees.Knows publicKey := by
  obtain ⟨data, found, -⟩ := recorded
  obtain ⟨validator, -, registered, -⟩ := wellFormed.vote_of_get found
  exact registered.knows

theorem WellFormed.knows_of_recordsProposal (wellFormed : trees.WellFormed)
    (recorded : trees.RecordsProposal publicKey proposal) : trees.Knows publicKey := by
  obtain ⟨data, found, -⟩ := recorded
  obtain ⟨validator, -, registered, -⟩ := wellFormed.block_of_get found
  exact registered.knows

@[simp] theorem exported_votes :
    (trees.exported publicKey).votes = (trees.storedVotes publicKey).map AttestationData.vote := by
  simp only [InterchangeData.votes, exported, List.filterMap_map]
  rw [← List.filterMap_eq_map]
  congr 1
  funext data
  simp [Except.toOption, AttestationData.vote]

@[simp] theorem exported_proposals :
    (trees.exported publicKey).proposals =
      (trees.storedBlocks publicKey).map fun data => ⟨data.slot, data.signingRoot⟩ := by
  simp only [InterchangeData.proposals, exported, List.filterMap_map]
  rw [← List.filterMap_eq_map]
  congr 1
  funext data
  simp [Except.toOption]

theorem WellFormed.mem_storedVotes (wellFormed : trees.WellFormed) (width : publicKey.length = 48)
    {data : AttestationData} :
    data ∈ trees.storedVotes publicKey ↔
      trees.attestations.get (attestationKey publicKey data.targetEpoch) = some (.readable data) := by
  simp only [storedVotes, List.mem_filterMap, Prod.exists]
  constructor
  · rintro ⟨key, stored, scanned, read⟩
    obtain ⟨under, found⟩ := Tree.mem_scanPrefix.mp scanned
    obtain ⟨existing, rfl, rfl⟩ := wellFormed.vote_of_prefix width under found
    cases read
    exact found
  · intro found
    exact ⟨_, _, Tree.mem_scanPrefix.mpr ⟨recordKeyPrefix_recordKey .., found⟩, rfl⟩

theorem WellFormed.mem_storedBlocks (wellFormed : trees.WellFormed) (width : publicKey.length = 48)
    {data : BlockData} :
    data ∈ trees.storedBlocks publicKey ↔
      trees.blocks.get (blockKey publicKey data.slot) = some (.readable data) := by
  simp only [storedBlocks, List.mem_filterMap, Prod.exists]
  constructor
  · rintro ⟨key, stored, scanned, read⟩
    obtain ⟨under, found⟩ := Tree.mem_scanPrefix.mp scanned
    obtain ⟨existing, rfl, rfl⟩ := wellFormed.block_of_prefix width under found
    cases read
    exact found
  · intro found
    exact ⟨_, _, Tree.mem_scanPrefix.mpr ⟨recordKeyPrefix_recordKey .., found⟩, rfl⟩

theorem WellFormed.storedVotes_apart (wellFormed : trees.WellFormed)
    (width : publicKey.length = 48) :
    ((trees.storedVotes publicKey).map AttestationData.vote).Pairwise Vote.Apart := by
  rw [List.pairwise_map, storedVotes, List.pairwise_filterMap]
  -- Different keys of one validator differ in the target epoch.
  refine (trees.attestations.scanPrefix_distinct _).imp_of_mem ?_
  rintro ⟨key, stored⟩ ⟨otherKey, otherStored⟩ scanned otherScanned keys data read other otherRead
  obtain ⟨under, found⟩ := Tree.mem_scanPrefix.mp scanned
  obtain ⟨otherUnder, otherFound⟩ := Tree.mem_scanPrefix.mp otherScanned
  obtain ⟨existing, rfl, rfl⟩ := wellFormed.vote_of_prefix width under found
  obtain ⟨otherExisting, rfl, rfl⟩ := wellFormed.vote_of_prefix width otherUnder otherFound
  cases read
  cases otherRead
  refine ⟨fun same => keys ?_, wellFormed.votesCompatible publicKey _ _ _ _ found otherFound⟩
  exact congrArg (attestationKey publicKey) same

theorem WellFormed.storedBlocks_apart (wellFormed : trees.WellFormed)
    (width : publicKey.length = 48) :
    (trees.storedBlocks publicKey).Pairwise fun a b => a.slot ≠ b.slot := by
  rw [storedBlocks, List.pairwise_filterMap]
  refine (trees.blocks.scanPrefix_distinct _).imp_of_mem ?_
  rintro ⟨key, stored⟩ ⟨otherKey, otherStored⟩ scanned otherScanned keys data read other otherRead
  obtain ⟨under, found⟩ := Tree.mem_scanPrefix.mp scanned
  obtain ⟨otherUnder, otherFound⟩ := Tree.mem_scanPrefix.mp otherScanned
  obtain ⟨existing, rfl, rfl⟩ := wellFormed.block_of_prefix width under found
  obtain ⟨otherExisting, rfl, rfl⟩ := wellFormed.block_of_prefix width otherUnder otherFound
  cases read
  cases otherRead
  exact fun same => keys (congrArg (blockKey publicKey) same)

theorem WellFormed.mem_exported_votes (wellFormed : trees.WellFormed)
    (known : trees.Knows publicKey) :
    vote ∈ (trees.exported publicKey).votes ↔ trees.RecordsVote publicKey vote := by
  obtain ⟨validator, registered⟩ := wellFormed.registered known
  simp only [exported_votes, List.mem_map, wellFormed.mem_storedVotes registered.length_eq]
  constructor
  · rintro ⟨data, found, rfl⟩
    exact ⟨data, found, rfl⟩
  · rintro ⟨data, found, rfl⟩
    exact ⟨data, found, rfl⟩

theorem WellFormed.mem_exported_proposals (wellFormed : trees.WellFormed)
    (known : trees.Knows publicKey) :
    proposal ∈ (trees.exported publicKey).proposals ↔
      trees.RecordsProposal publicKey proposal := by
  obtain ⟨validator, registered⟩ := wellFormed.registered known
  simp only [exported_proposals, List.mem_map, wellFormed.mem_storedBlocks registered.length_eq]
  constructor
  · rintro ⟨data, found, rfl⟩
    exact ⟨data, found, rfl⟩
  · rintro ⟨data, found, root⟩
    obtain ⟨-, existing, -, read, slot⟩ := wellFormed.block_of_get found
    cases read
    refine ⟨data, by rw [slot]; exact found, ?_⟩
    simp [slot, root]

theorem WellFormed.exported_clean (wellFormed : trees.WellFormed)
    (known : trees.Knows publicKey) : (trees.exported publicKey).Clean publicKey := by
  obtain ⟨validator, registered⟩ := wellFormed.registered known
  refine ⟨by simp [exported], registered.length_eq, ?_, ?_, ?_, ?_⟩
  · simp only [exported, List.mem_map]
    rintro attestation ⟨data, -, rfl⟩
    exact ⟨_, parse_signedAttestation ..⟩
  · simp only [exported, List.mem_map]
    rintro block ⟨data, -, rfl⟩
    exact ⟨_, parse_signedBlock ..⟩
  · rw [exported_votes]
    exact wellFormed.storedVotes_apart registered.length_eq
  · rw [exported_proposals, List.pairwise_map]
    exact wellFormed.storedBlocks_apart registered.length_eq

end Trees

namespace SlashingProtectionDb

@[simp] theorem new_trees : new.trees = Trees.empty := rfl

theorem getAttestationRecords_wellFormed {db : SlashingProtectionDb}
    (wellFormed : db.trees.WellFormed) {env : Env} (healthy : env.Healthy) (publicKey : Bytes) :
    db.getAttestationRecords env publicKey =
      .ok ((db.trees.storedVotes publicKey).map fun data =>
        ⟨data.sourceEpoch, data.targetEpoch, data.signingRoot, data.signedAt⟩) := by
  refine readRecords_of_readable healthy _ 0 _ ?_
  rintro ⟨key, stored⟩ scanned
  obtain ⟨-, found⟩ := Tree.mem_scanPrefix.mp scanned
  obtain ⟨-, -, data, -, read, -⟩ := wellFormed.votesKeyed key stored found
  exact ⟨data, read⟩

theorem getBlockRecords_wellFormed {db : SlashingProtectionDb}
    (wellFormed : db.trees.WellFormed) {env : Env} (healthy : env.Healthy) (publicKey : Bytes) :
    db.getBlockRecords env publicKey =
      .ok ((db.trees.storedBlocks publicKey).map fun data =>
        ⟨data.slot, data.signingRoot, data.signedAt⟩) := by
  refine readRecords_of_readable healthy _ 0 _ ?_
  rintro ⟨key, stored⟩ scanned
  obtain ⟨-, found⟩ := Tree.mem_scanPrefix.mp scanned
  obtain ⟨-, -, data, -, read, -⟩ := wellFormed.blocksKeyed key stored found
  exact ⟨data, read⟩

end SlashingProtectionDb

theorem export_wellFormed {db : SlashingProtectionDb} (wellFormed : db.trees.WellFormed) {env : Env}
    (healthy : env.Healthy) (genesisValidatorsRoot : String) :
    Eip3076Interchange.export db env genesisValidatorsRoot none =
      .ok { Eip3076Interchange.new genesisValidatorsRoot with
        data := db.trees.validators.tree.iter.map fun item => db.trees.exported item.1 } := by
  have one : Eip3076Interchange.exportValidator db env =
      fun publicKey => pure (db.trees.exported publicKey.bytes) := by
    funext publicKey
    simp [Eip3076Interchange.exportValidator, db.getAttestationRecords_wellFormed wellFormed healthy,
      db.getBlockRecords_wellFormed wellFormed healthy, Trees.exported, Bind.bind, Except.bind,
      pure, Except.pure, Function.comp_def]
  simp only [Eip3076Interchange.export, SlashingProtectionDb.listValidators,
    readKeys_healthy healthy, one, List.mapM_pure]
  simp [Bind.bind, Except.bind, pure, Except.pure, Function.comp_def]

/-- What the records alone can carry over. -/
structure Trees.Migrated (before after : Trees) : Prop where
  wellFormed : after.WellFormed
  knows : ∀ owner, after.Knows owner ↔ before.Knows owner
  votes : ∀ owner vote, after.RecordsVote owner vote ↔ before.RecordsVote owner vote
  proposals : ∀ owner proposal,
    after.RecordsProposal owner proposal ↔ before.RecordsProposal owner proposal
  minima : ∀ owner, before.Knows owner → ∀ bound,
    after.minimum owner bound = (before.exported owner).maximum bound

/-- Importing an export succeeds and carries over all records. -/
theorem import_export {db : SlashingProtectionDb} (wellFormed : db.trees.WellFormed) {env : Env}
    (healthy : env.Healthy) {envs : Nat → Env} (allHealthy : ∀ call, (envs call).Healthy)
    {genesisValidatorsRoot : String} {file : Eip3076Interchange}
    (exported : Eip3076Interchange.export db env genesisValidatorsRoot none = .ok file) :
    (file.importRun envs .new).2 = .ok () ∧
      (file.importRun envs .new).1.result.attestationsSkipped = 0 ∧
      (file.importRun envs .new).1.result.blocksSkipped = 0 ∧
      db.trees.Migrated (file.importRun envs .new).1.db.trees := by
  rw [export_wellFormed wellFormed healthy] at exported
  cases exported
  have known : ∀ item ∈ db.trees.validators.tree.iter, db.trees.Knows item.1 := by
    rintro ⟨key, stored⟩ member
    simp [Trees.Knows, Tree.mem_iter.mp member]
  have listed : ∀ owner, db.trees.Knows owner →
      db.trees.exported owner ∈
        db.trees.validators.tree.iter.map fun item => db.trees.exported item.1 := by
    intro owner knows
    obtain ⟨stored, found⟩ := Option.isSome_iff_exists.mp knows
    exact List.mem_map.mpr ⟨(owner, stored), Tree.mem_iter.mpr found, rfl⟩
  have named : ∀ owner, parseHexPubkey (db.trees.exported owner).pubkey = .ok owner :=
    fun owner => by simp [Trees.exported]
  obtain ⟨done, run⟩ := importValidators_clean allHealthy { db := .new }
    (db.trees.validators.tree.iter.map fun item => db.trees.exported item.1)
    Trees.WellFormed.empty
    (by
      intro entry member
      obtain ⟨item, inTree, rfl⟩ := List.mem_map.mp member
      exact ⟨item.1, wellFormed.exported_clean (known item inTree), by simp⟩)
    (by
      rw [List.pairwise_map]
      refine db.trees.validators.tree.iter_distinct.imp fun apart => ?_
      simpa [named] using apart)
  have entries : ∀ owner (holds : InterchangeData → Prop),
      (∃ entry ∈ db.trees.validators.tree.iter.map fun item => db.trees.exported item.1,
        parseHexPubkey entry.pubkey = .ok owner ∧ holds entry) ↔
      db.trees.Knows owner ∧ holds (db.trees.exported owner) := by
    intro owner holds
    constructor
    · rintro ⟨entry, member, parsed, held⟩
      obtain ⟨item, inTree, rfl⟩ := List.mem_map.mp member
      obtain rfl : item.1 = owner := by simpa [named] using parsed
      exact ⟨known item inTree, held⟩
    · rintro ⟨knows, held⟩
      exact ⟨_, listed owner knows, named owner, held⟩
  refine ⟨done, run.attestationsSkipped, run.blocksSkipped, run.wellFormed, ?_, ?_, ?_, ?_⟩
  · intro owner
    have all := entries owner fun _ => True
    simp only [and_true] at all
    have known := run.knows owner
    rw [all] at known
    simp only [SlashingProtectionDb.new_trees, Trees.not_knows_empty, false_or] at known
    exact known
  · intro owner vote
    have recorded := run.votes owner vote
    rw [entries owner fun entry => vote ∈ entry.votes] at recorded
    simp only [SlashingProtectionDb.new_trees, Trees.not_recordsVote_empty, false_or] at recorded
    refine recorded.trans ⟨fun carried => ?_, fun before => ?_⟩
    · exact (wellFormed.mem_exported_votes carried.1).mp carried.2
    · have knows := wellFormed.knows_of_recordsVote before
      exact ⟨knows, (wellFormed.mem_exported_votes knows).mpr before⟩
  · intro owner proposal
    have recorded := run.proposals owner proposal
    rw [entries owner fun entry => proposal ∈ entry.proposals] at recorded
    simp only [SlashingProtectionDb.new_trees, Trees.not_recordsProposal_empty, false_or] at recorded
    refine recorded.trans ⟨fun carried => ?_, fun before => ?_⟩
    · exact (wellFormed.mem_exported_proposals carried.1).mp carried.2
    · have knows := wellFormed.knows_of_recordsProposal before
      exact ⟨knows, (wellFormed.mem_exported_proposals knows).mpr before⟩
  · intro owner knows bound
    exact run.minima _ (listed owner knows) owner (named owner) bound

def AttestationRecord.vote (record : AttestationRecord) : Vote :=
  ⟨record.sourceEpoch, record.targetEpoch, record.signingRoot⟩

def BlockRecord.proposal (record : BlockRecord) : Proposal := ⟨record.slot, record.signingRoot⟩

namespace Trees

def storedVote (stored : Stored AttestationData) : Option Vote :=
  stored.decode.toOption.map AttestationData.vote

def storedProposal (stored : Stored BlockData) : Option Proposal :=
  stored.decode.toOption.map fun data => ⟨data.slot, data.signingRoot⟩

theorem storedVotes_map (trees : Trees) (publicKey : Bytes) :
    (trees.storedVotes publicKey).map AttestationData.vote =
      ((trees.attestations.mapValues storedVote).scanPrefix
        (attestationKeyPrefix publicKey)).filterMap Prod.snd := by
  rw [Tree.scanPrefix_mapValues, List.filterMap_map, storedVotes, List.map_filterMap]
  rfl

theorem storedBlocks_map (trees : Trees) (publicKey : Bytes) :
    ((trees.storedBlocks publicKey).map fun data => (⟨data.slot, data.signingRoot⟩ : Proposal)) =
      ((trees.blocks.mapValues storedProposal).scanPrefix
        (blockKeyPrefix publicKey)).filterMap Prod.snd := by
  rw [Tree.scanPrefix_mapValues, List.filterMap_map, storedBlocks, List.map_filterMap]
  rfl

variable {first second : Trees}

theorem WellFormed.storedVote_of_get (wellFormed : first.WellFormed)
    (recorded : ∀ owner vote, first.RecordsVote owner vote → second.RecordsVote owner vote)
    (key : Bytes) (stored : Stored AttestationData)
    (found : first.attestations.get key = some stored) :
    (second.attestations.get key).map storedVote = some (storedVote stored) := by
  obtain ⟨owner, -, data, -, rfl, rfl⟩ := wellFormed.votesKeyed key stored found
  obtain ⟨other, same, equal⟩ := recorded owner data.vote ⟨data, found, rfl⟩
  have target : data.vote.target = data.targetEpoch := rfl
  rw [target] at same
  simp [same, storedVote, Stored.decode, Except.toOption, equal]

theorem WellFormed.storedProposal_of_get (wellFormed : first.WellFormed)
    (formed : second.WellFormed)
    (recorded : ∀ owner proposal, first.RecordsProposal owner proposal →
      second.RecordsProposal owner proposal)
    (key : Bytes) (stored : Stored BlockData) (found : first.blocks.get key = some stored) :
    (second.blocks.get key).map storedProposal = some (storedProposal stored) := by
  obtain ⟨owner, -, data, -, rfl, rfl⟩ := wellFormed.blocksKeyed key stored found
  obtain ⟨other, same, equal⟩ := recorded owner ⟨data.slot, data.signingRoot⟩ ⟨data, found, rfl⟩
  obtain ⟨-, existing, -, read, slot⟩ := formed.block_of_get same
  cases read
  simp only at same equal slot
  simp [same, storedProposal, Stored.decode, Except.toOption, slot, equal]

namespace Migrated

variable (migrated : first.Migrated second) (wellFormed : first.WellFormed)

include migrated

theorem validators :
    (second.validators.tree.iter.map fun item => item.1) =
      first.validators.tree.iter.map fun item => item.1 := by
  have same : second.validators.tree.mapValues (fun _ => ()) =
      first.validators.tree.mapValues (fun _ => ()) := by
    refine Tree.mapValues_eq (fun key stored found => ?_) (fun key stored found => ?_)
    · have known := (migrated.knows key).mp (by simp [Knows, found])
      obtain ⟨other, found⟩ := Option.isSome_iff_exists.mp known
      simp [found]
    · have known := (migrated.knows key).mpr (by simp [Knows, found])
      obtain ⟨other, found⟩ := Option.isSome_iff_exists.mp known
      simp [found]
  have walked := congrArg (fun tree => tree.iter.map Prod.fst) same
  simpa [Tree.iter_mapValues, Function.comp_def] using walked

include wellFormed

theorem storedVotes (publicKey : Bytes) :
    (second.storedVotes publicKey).map AttestationData.vote =
      (first.storedVotes publicKey).map AttestationData.vote := by
  have same := Tree.mapValues_eq
    (migrated.wellFormed.storedVote_of_get fun owner vote => (migrated.votes owner vote).mp)
    (wellFormed.storedVote_of_get fun owner vote => (migrated.votes owner vote).mpr)
  rw [storedVotes_map, storedVotes_map, same]

theorem storedBlocks (publicKey : Bytes) :
    ((second.storedBlocks publicKey).map fun data => (⟨data.slot, data.signingRoot⟩ : Proposal)) =
      (first.storedBlocks publicKey).map fun data => ⟨data.slot, data.signingRoot⟩ := by
  have same := Tree.mapValues_eq
    (migrated.wellFormed.storedProposal_of_get wellFormed fun owner proposal =>
      (migrated.proposals owner proposal).mp)
    (wellFormed.storedProposal_of_get migrated.wellFormed fun owner proposal =>
      (migrated.proposals owner proposal).mpr)
  rw [storedBlocks_map, storedBlocks_map, same]

end Migrated

end Trees

def Sample.migrating : SlashingProtectionDb :=
  (SlashingProtectionDb.run [asks .registerValidator, votes 1 2 1, importsVote 2 3 2]).1

theorem Sample.migrating_reachable : Sample.migrating.Reachable :=
  ⟨_, by simp [asks, votes, importsVote, Event.Under, Env.Healthy, env], rfl⟩

/-- However the store has failed, no exported history holds votes or blocks to be slashed for. -/
theorem exported_history_not_slashable (events : List Event) (env : Env) (healthy : env.Healthy)
    (genesisValidatorsRoot : String) :
    ∃ file, Eip3076Interchange.export (SlashingProtectionDb.run events).1 env
        genesisValidatorsRoot none = .ok file ∧
      ∀ entry ∈ file.data, entry.votes.Pairwise Vote.Apart ∧
        entry.proposals.Pairwise fun first second => first.slot ≠ second.slot := by
  have along : Along (fun _ _ => True) SlashingProtectionDb.step .new events :=
    Along.of_forall (fun _ _ _ => trivial) _
  have wellFormed : (SlashingProtectionDb.run events).1.trees.WellFormed :=
    trace_invariant (fun (db : SlashingProtectionDb) _ => db.trees.WellFormed)
      (fun db _ event holds _ => db.step_wellFormed event holds) events _ []
      Trees.WellFormed.empty along
  refine ⟨_, export_wellFormed wellFormed healthy _, fun entry member => ?_⟩
  -- An entry is listed for a key that the database knows, and so is clean.
  obtain ⟨item, inTree, rfl⟩ := List.mem_map.mp member
  have known : (SlashingProtectionDb.run events).1.trees.Knows item.1 := by
    simp [Trees.Knows, Tree.mem_iter.mp inTree]
  have clean := wellFormed.exported_clean known
  exact ⟨clean.votesApart, clean.slotsApart⟩

theorem exported_history_not_slashable_sample :
    ∃ file, Eip3076Interchange.export Sample.migrating Sample.env "0x00" none = .ok file ∧
      ∀ entry ∈ file.data, entry.votes.Pairwise Vote.Apart ∧
        entry.proposals.Pairwise fun first second => first.slot ≠ second.slot :=
  exported_history_not_slashable _ Sample.env rfl "0x00"

end Hsm
