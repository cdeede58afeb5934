import Hsm.Validator.Requests
import Mathlib.Logic.Relation

/-! The trees of a database stay well formed under every request, whatever the store does. -/

namespace Hsm

/-- The writes that requests make, with their checks. -/
inductive Write (publicKey : Bytes) : Trees → Trees → Prop where
  | validator {trees : Trees} (data : ValidatorData) (owner : data.publicKey = publicKey) :
      Write publicKey trees (trees.putValidator data)
  | vote {trees : Trees} (validator : ValidatorData) (data : AttestationData)
      (registered : trees.Registered publicKey validator)
      (absent : trees.attestations.get (attestationKey publicKey data.targetEpoch) = none)
      (compatible : trees.VotesCompatible publicKey data.sourceEpoch data.targetEpoch) :
      Write publicKey trees (trees.putAttestation (attestationKey publicKey data.targetEpoch) data)
  | block {trees : Trees} (validator : ValidatorData) (data : BlockData)
      (registered : trees.Registered publicKey validator)
      (absent : trees.blocks.get (blockKey publicKey data.slot) = none) :
      Write publicKey trees (trees.putBlock (blockKey publicKey data.slot) data)

abbrev Writes (publicKey : Bytes) : Trees → Trees → Prop :=
  Relation.ReflTransGen (Write publicKey)

theorem Persisted.writes {store after : Durable Trees} {insert touch : Trees → Trees}
    {outcome : Except SlashingError Unit} {publicKey : Bytes}
    (persisted : Persisted store insert touch after outcome)
    (inserted : Write publicKey store.live (insert store.live))
    (touched : ∀ trees, Write publicKey trees (touch trees)) :
    Writes publicKey store.live after.live := by
  cases persisted with
  | notInserted e => exact .refl
  | notTouched e => exact .single inserted
  | notFlushed e => exact .tail (.single inserted) (touched _)
  | flushed => exact .tail (.single inserted) (touched _)

namespace SlashingProtectionDb

theorem updateMinimum_writes (db : SlashingProtectionDb) (env : Env) (publicKey : Bytes)
    {change : ValidatorData → ValidatorData}
    (owner : ∀ data, (change data).publicKey = data.publicKey) :
    Writes publicKey db.trees (db.updateMinimum env publicKey change).1.trees := by
  rcases updateMinimum_cases db env publicKey change with ⟨same, -⟩ | ⟨data, registered, made⟩
  · rw [same]
  · rw [made]
    exact .single (.validator _ ((owner data).trans registered.publicKey_eq))

theorem serve_writes (db : SlashingProtectionDb) (request : Request) :
    Writes request.publicKey db.trees (db.serve request).1.trees := by
  obtain ⟨publicKey, operation, env⟩ := request
  cases operation with
  | isRegistered | getValidatorSummary | getAttestationRecords | getBlockRecords => exact .refl
  | setMinSourceEpoch | setMinTargetEpoch | setMinSlot =>
    exact updateMinimum_writes db env publicKey fun _ => rfl
  | registerValidator =>
    simp only [serve, Prod.map_fst, id_eq]
    rcases registerValidator_cases db env publicKey with
      ⟨same, -⟩ | ⟨data, owner, -, -, -, -, made⟩
    · rw [same]
    · rw [made]
      exact .single (.validator data owner)
  | checkAndRecordAttestation vote =>
    simp only [serve, Prod.map_fst, id_eq]
    rcases checkAndRecordAttestation_cases db env publicKey vote.source vote.target vote.root with
      ⟨same, -⟩ | ⟨same, -⟩ | ⟨data, checked, persisted⟩
    · rw [trees_of_store same]
    · rw [same]
    · obtain ⟨registered, absent, -, compatible⟩ := Trees.checkAttestation_fresh checked
      exact persisted.writes
        (.vote data ⟨vote.source, vote.target, vote.root, env.now⟩ registered absent compatible)
        fun trees => .validator _ registered.publicKey_eq
  | checkAndRecordBlock proposal =>
    simp only [serve, Prod.map_fst, id_eq]
    rcases checkAndRecordBlock_cases db env publicKey proposal.slot proposal.root with
      ⟨same, -⟩ | ⟨same, -⟩ | ⟨data, checked, persisted⟩
    · rw [trees_of_store same]
    · rw [same]
    · obtain ⟨registered, absent, -⟩ := Trees.checkBlock_fresh checked
      exact persisted.writes (.block data ⟨proposal.slot, proposal.root, env.now⟩ registered absent)
        fun trees => .validator _ registered.publicKey_eq

end SlashingProtectionDb

/-- Entries are readable and in place, and no two votes surround each other. -/
structure Trees.WellFormed (trees : Trees) : Prop where
  validatorsReadable : ∀ key stored, trees.validators.tree.get key = some stored →
    ∃ data, stored = .readable data
  votesKeyed : ∀ key stored, trees.attestations.get key = some stored →
    ∃ publicKey validator data, trees.Registered publicKey validator ∧ stored = .readable data ∧
      key = attestationKey publicKey data.targetEpoch
  blocksKeyed : ∀ key stored, trees.blocks.get key = some stored →
    ∃ publicKey validator data, trees.Registered publicKey validator ∧ stored = .readable data ∧
      key = blockKey publicKey data.slot
  votesCompatible : ∀ publicKey first second firstVote secondVote,
    trees.attestations.get (attestationKey publicKey first) = some (.readable firstVote) →
    trees.attestations.get (attestationKey publicKey second) = some (.readable secondVote) →
    Compatible firstVote.sourceEpoch firstVote.targetEpoch
      secondVote.sourceEpoch secondVote.targetEpoch

namespace Trees.WellFormed

variable {trees : Trees}

theorem empty : Trees.empty.WellFormed := by
  constructor <;> simp [Trees.empty, ValidatorTable.empty]

variable {publicKey : Bytes}

theorem vote_of_get (wellFormed : trees.WellFormed) {target : Epoch}
    {stored : Stored AttestationData}
    (found : trees.attestations.get (attestationKey publicKey target) = some stored) :
    ∃ validator data, trees.Registered publicKey validator ∧ stored = .readable data ∧
      data.targetEpoch = target := by
  obtain ⟨owner, validator, data, registered, read, same⟩ := wellFormed.votesKeyed _ _ found
  obtain ⟨rfl, rfl⟩ := recordKey_inj.mp same
  exact ⟨validator, data, registered, read, rfl⟩

theorem block_of_get (wellFormed : trees.WellFormed) {slot : Slot} {stored : Stored BlockData}
    (found : trees.blocks.get (blockKey publicKey slot) = some stored) :
    ∃ validator data, trees.Registered publicKey validator ∧ stored = .readable data ∧
      data.slot = slot := by
  obtain ⟨owner, validator, data, registered, read, same⟩ := wellFormed.blocksKeyed _ _ found
  obtain ⟨rfl, rfl⟩ := recordKey_inj.mp same
  exact ⟨validator, data, registered, read, rfl⟩

theorem vote_of_prefix (wellFormed : trees.WellFormed) {key : Bytes} (width : publicKey.length = 48)
    {stored : Stored AttestationData} (under : attestationKeyPrefix publicKey <+: key)
    (found : trees.attestations.get key = some stored) :
    ∃ data, stored = .readable data ∧ key = attestationKey publicKey data.targetEpoch := by
  obtain ⟨owner, validator, data, registered, read, same⟩ := wellFormed.votesKeyed _ _ found
  subst same
  have owns := publicKey_of_recordKeyPrefix under (width.trans registered.length_eq.symm)
  subst owns
  exact ⟨data, read, rfl⟩

theorem block_of_prefix (wellFormed : trees.WellFormed) {key : Bytes}
    (width : publicKey.length = 48) {stored : Stored BlockData}
    (under : blockKeyPrefix publicKey <+: key) (found : trees.blocks.get key = some stored) :
    ∃ data, stored = .readable data ∧ key = blockKey publicKey data.slot := by
  obtain ⟨owner, validator, data, registered, read, same⟩ := wellFormed.blocksKeyed _ _ found
  subst same
  have owns := publicKey_of_recordKeyPrefix under (width.trans registered.length_eq.symm)
  subst owns
  exact ⟨data, read, rfl⟩

variable {validator : ValidatorData}

theorem registered_mono (registered : trees.Registered publicKey validator) (data : ValidatorData) :
    ∃ after, (trees.putValidator data).Registered publicKey after := by
  by_cases same : data.publicKey = publicKey
  · subst same
    exact ⟨data, registered_putValidator trees data⟩
  · exact ⟨validator, (registered_putValidator_of_ne trees same validator).mpr registered⟩

theorem putValidator (wellFormed : trees.WellFormed) (data : ValidatorData) :
    (trees.putValidator data).WellFormed where
  validatorsReadable := by
    intro key stored found
    simp only [Trees.putValidator, ValidatorTable.put, Tree.get_insert] at found
    split at found
    · cases found
      exact ⟨data, rfl⟩
    · exact wellFormed.validatorsReadable key stored found
  votesKeyed := by
    intro key stored found
    obtain ⟨owner, validator, vote, registered, read, same⟩ :=
      wellFormed.votesKeyed key stored found
    obtain ⟨after, stays⟩ := registered_mono registered data
    exact ⟨owner, after, vote, stays, read, same⟩
  blocksKeyed := by
    intro key stored found
    obtain ⟨owner, validator, block, registered, read, same⟩ :=
      wellFormed.blocksKeyed key stored found
    obtain ⟨after, stays⟩ := registered_mono registered data
    exact ⟨owner, after, block, stays, read, same⟩
  votesCompatible := wellFormed.votesCompatible

theorem putAttestation (wellFormed : trees.WellFormed) {data : AttestationData}
    (registered : trees.Registered publicKey validator)
    (compatible : trees.VotesCompatible publicKey data.sourceEpoch data.targetEpoch) :
    (trees.putAttestation (attestationKey publicKey data.targetEpoch) data).WellFormed where
  validatorsReadable := wellFormed.validatorsReadable
  votesKeyed := by
    intro key stored found
    simp only [putAttestation_attestations, Tree.get_insert] at found
    split at found
    · rename_i same
      cases found
      exact ⟨publicKey, validator, data, registered, rfl, same.symm⟩
    · exact wellFormed.votesKeyed key stored found
  blocksKeyed := wellFormed.blocksKeyed
  votesCompatible := by
    -- The scan before the insertion covered exactly the pairs that involve the new vote.
    intro owner first second firstVote secondVote foundFirst foundSecond
    have checked : ∀ number vote, publicKey = owner →
        trees.attestations.get (attestationKey owner number) = some (.readable vote) →
        Compatible data.sourceEpoch data.targetEpoch vote.sourceEpoch vote.targetEpoch := by
      rintro number vote rfl found
      obtain ⟨existing, read, apart⟩ :=
        compatible _ _ (recordKeyPrefix_recordKey publicKey number) found
      cases read
      exact apart
    simp only [putAttestation_attestations, Tree.get_insert, recordKey_inj] at foundFirst foundSecond
    split at foundFirst <;> split at foundSecond
    · cases foundFirst
      cases foundSecond
      constructor <;> intro surrounds <;> exact absurd surrounds.1 (UInt64.lt_irrefl _)
    · rename_i same _
      cases foundFirst
      exact checked second secondVote same.1 foundSecond
    · rename_i _ same
      cases foundSecond
      exact (checked first firstVote same.1 foundFirst).symm
    · exact wellFormed.votesCompatible owner first second _ _ foundFirst foundSecond

theorem putBlock (wellFormed : trees.WellFormed) {data : BlockData}
    (registered : trees.Registered publicKey validator) :
    (trees.putBlock (blockKey publicKey data.slot) data).WellFormed where
  validatorsReadable := wellFormed.validatorsReadable
  votesKeyed := wellFormed.votesKeyed
  blocksKeyed := by
    intro key stored found
    simp only [putBlock_blocks, Tree.get_insert] at found
    split at found
    · rename_i same
      cases found
      exact ⟨publicKey, validator, data, registered, rfl, same.symm⟩
    · exact wellFormed.blocksKeyed key stored found
  votesCompatible := wellFormed.votesCompatible

theorem of_writes {after : Trees} (wellFormed : trees.WellFormed)
    (writes : Writes publicKey trees after) : after.WellFormed := by
  induction writes with
  | refl => exact wellFormed
  | tail _ last ih =>
    cases last with
    | validator data owner => exact ih.putValidator data
    | vote validator data registered absent compatible => exact ih.putAttestation registered compatible
    | block validator data registered absent => exact ih.putBlock registered

end Trees.WellFormed

theorem ImportState.Reaches.wellFormed {envs : Nat → Env} {before after : ImportState}
    (reaches : ImportState.Reaches envs before after) (wellFormed : before.db.trees.WellFormed) :
    after.db.trees.WellFormed := by
  obtain ⟨requests, -, reached, -⟩ := reaches
  have along : Along (fun _ _ => True) SlashingProtectionDb.serveVotes before.db requests :=
    Along.of_forall (fun _ _ _ => trivial) before.db
  rw [← reached]
  exact trace_invariant (fun db _ => db.trees.WellFormed)
    (fun db _ request holds _ => holds.of_writes (db.serve_writes request)) requests before.db []
    wellFormed along

namespace SlashingProtectionDb

theorem step_wellFormed (db : SlashingProtectionDb) (event : Event)
    (wellFormed : db.trees.WellFormed) : (db.step event).1.trees.WellFormed := by
  cases event with
  | request asked => exact wellFormed.of_writes (db.serve_writes asked)
  | importFile file envs => exact (importRun_reaches file envs db).wellFormed wellFormed

theorem Reachable.wellFormed {db : SlashingProtectionDb} (reachable : db.Reachable) :
    db.trees.WellFormed := by
  obtain ⟨events, -, rfl⟩ := reachable
  have along : Along (fun _ _ => True) step new events := Along.of_forall (fun _ _ _ => trivial) new
  exact trace_invariant (fun db _ => db.trees.WellFormed)
    (fun db _ event holds _ => step_wellFormed db event holds) events new [] Trees.WellFormed.empty
    along

end SlashingProtectionDb

end Hsm
