import Hsm.Validator.ImportGuard
import Hsm.Validator.Invariant

/-! Importing a file without conflicts, for validators the database does not know yet. -/

namespace Hsm

def Vote.Apart (first second : Vote) : Prop :=
  first.target ≠ second.target ∧
    Compatible first.source first.target second.source second.target

theorem Vote.Apart.symm {first second : Vote} (apart : first.Apart second) : second.Apart first :=
  ⟨apart.1.symm, apart.2.symm⟩

/-- An entry that can be recorded as a whole. -/
structure InterchangeData.Clean (entry : InterchangeData) (publicKey : Bytes) : Prop where
  parsed : parseHexPubkey entry.pubkey = .ok publicKey
  size : publicKey.length = 48
  votesParse : ∀ attestation ∈ entry.signedAttestations, ∃ vote, attestation.parse = .ok vote
  blocksParse : ∀ block ∈ entry.signedBlocks, ∃ proposal, block.parse = .ok proposal
  votesApart : entry.votes.Pairwise Vote.Apart
  slotsApart : entry.proposals.Pairwise fun a b => a.slot ≠ b.slot

namespace Trees

def Knows (trees : Trees) (publicKey : Bytes) : Prop :=
  (trees.validators.tree.get publicKey).isSome

variable {trees : Trees} {publicKey : Bytes}

theorem WellFormed.registered (wellFormed : trees.WellFormed) (known : trees.Knows publicKey) :
    ∃ data, trees.Registered publicKey data := by
  obtain ⟨stored, found⟩ := Option.isSome_iff_exists.mp known
  obtain ⟨data, rfl⟩ := wellFormed.validatorsReadable _ _ found
  exact ⟨data, found⟩

theorem Registered.knows {data : ValidatorData} (registered : trees.Registered publicKey data) :
    trees.Knows publicKey := by
  unfold Registered at registered
  simp [Knows, registered]

theorem minimum_of_unknown (unknown : ¬ trees.Knows publicKey) (bound : Bound) :
    trees.minimum publicKey bound = none := by
  have absent : trees.validators.tree.get publicKey = none := by
    simpa [Knows] using unknown
  simp [minimum, absent]

theorem WellFormed.absent_of_apart (wellFormed : trees.WellFormed) {vote : Vote}
    (apart : ∀ other, trees.RecordsVote publicKey other → vote.Apart other) :
    trees.attestations.get (attestationKey publicKey vote.target) = none := by
  cases found : trees.attestations.get (attestationKey publicKey vote.target) with
  | none => rfl
  | some stored =>
    obtain ⟨-, existing, -, rfl, target⟩ := wellFormed.vote_of_get found
    rw [← target] at found
    exact absurd target.symm (apart existing.vote ⟨existing, found, rfl⟩).1

theorem WellFormed.compatible_of_apart (wellFormed : trees.WellFormed)
    (width : publicKey.length = 48) {vote : Vote}
    (apart : ∀ other, trees.RecordsVote publicKey other → vote.Apart other) :
    trees.VotesCompatible publicKey vote.source vote.target := by
  intro key stored under found
  obtain ⟨existing, rfl, rfl⟩ := wellFormed.vote_of_prefix width under found
  exact ⟨existing, rfl, (apart existing.vote ⟨existing, found, rfl⟩).2⟩

theorem WellFormed.absent_of_slot (wellFormed : trees.WellFormed) {slot : Slot}
    (apart : ∀ other, trees.RecordsProposal publicKey other → slot ≠ other.slot) :
    trees.blocks.get (blockKey publicKey slot) = none := by
  cases found : trees.blocks.get (blockKey publicKey slot) with
  | none => rfl
  | some stored =>
    obtain ⟨-, existing, -, rfl, -⟩ := wellFormed.block_of_get found
    exact absurd rfl (apart ⟨slot, existing.signingRoot⟩ ⟨existing, found, rfl⟩)

theorem knows_putValidator (trees : Trees) (data : ValidatorData) (owner : Bytes) :
    (trees.putValidator data).Knows owner ↔ trees.Knows owner ∨ owner = data.publicKey := by
  by_cases same : data.publicKey = owner
  · simp [Knows, putValidator, ValidatorTable.put, same]
  · have other : owner ≠ data.publicKey := fun contra => same contra.symm
    simp [Knows, putValidator, ValidatorTable.put, Tree.get_insert, same, other]

theorem recordsVote_putAttestation (data : AttestationData)
    (absent : trees.attestations.get (attestationKey publicKey data.targetEpoch) = none)
    (owner : Bytes) (vote : Vote) :
    (trees.putAttestation (attestationKey publicKey data.targetEpoch) data).RecordsVote owner vote ↔
      trees.RecordsVote owner vote ∨ owner = publicKey ∧ vote = data.vote := by
  simp only [RecordsVote, putAttestation_attestations, Tree.get_insert, recordKey_inj]
  constructor
  · rintro ⟨found, stored, rfl⟩
    split at stored
    · rename_i same
      cases stored
      exact .inr ⟨same.1.symm, rfl⟩
    · exact .inl ⟨found, stored, rfl⟩
  · rintro (⟨found, stored, rfl⟩ | ⟨rfl, rfl⟩)
    · refine ⟨found, ?_, rfl⟩
      rw [if_neg]
      · exact stored
      · rintro ⟨rfl, same⟩
        rw [← same, absent] at stored
        cases stored
    · exact ⟨data, by simp [AttestationData.vote], rfl⟩

theorem recordsProposal_putBlock (data : BlockData)
    (absent : trees.blocks.get (blockKey publicKey data.slot) = none) (owner : Bytes)
    (proposal : Proposal) :
    (trees.putBlock (blockKey publicKey data.slot) data).RecordsProposal owner proposal ↔
      trees.RecordsProposal owner proposal ∨
        owner = publicKey ∧ proposal = ⟨data.slot, data.signingRoot⟩ := by
  obtain ⟨slot, root⟩ := proposal
  simp only [RecordsProposal, putBlock_blocks, Tree.get_insert, recordKey_inj, Proposal.mk.injEq]
  constructor
  · rintro ⟨found, stored, rfl⟩
    split at stored
    · rename_i same
      cases stored
      exact .inr ⟨same.1.symm, same.2.symm, rfl⟩
    · exact .inl ⟨found, stored, rfl⟩
  · rintro (⟨found, stored, rfl⟩ | ⟨rfl, rfl, rfl⟩)
    · refine ⟨found, ?_, rfl⟩
      rw [if_neg]
      · exact stored
      · rintro ⟨rfl, same⟩
        rw [← same, absent] at stored
        cases stored
    · exact ⟨data, by simp, rfl⟩

end Trees

/-- Only the given records of one validator were added. -/
structure Trees.Adds (before after : Trees) (publicKey : Bytes) (votes : List Vote)
    (proposals : List Proposal) : Prop where
  votes : ∀ owner vote, after.RecordsVote owner vote ↔
    before.RecordsVote owner vote ∨ owner = publicKey ∧ vote ∈ votes
  proposals : ∀ owner proposal, after.RecordsProposal owner proposal ↔
    before.RecordsProposal owner proposal ∨ owner = publicKey ∧ proposal ∈ proposals
  knows : ∀ owner, after.Knows owner ↔ before.Knows owner ∨ owner = publicKey

namespace Trees.Adds

variable {first second third : Trees} {publicKey : Bytes}
  {votes moreVotes : List Vote} {proposals moreProposals : List Proposal}

theorem refl (known : first.Knows publicKey) : first.Adds first publicKey [] [] where
  votes := by simp
  proposals := by simp
  knows := by
    intro owner
    refine ⟨.inl, ?_⟩
    rintro (known | rfl)
    · exact known
    · assumption

theorem trans (before : first.Adds second publicKey votes proposals)
    (after : second.Adds third publicKey moreVotes moreProposals) :
    first.Adds third publicKey (votes ++ moreVotes) (proposals ++ moreProposals) where
  votes := by
    intro owner vote
    rw [after.votes, before.votes, List.mem_append, and_or_left, or_assoc]
  proposals := by
    intro owner proposal
    rw [after.proposals, before.proposals, List.mem_append, and_or_left, or_assoc]
  knows := by
    intro owner
    rw [after.knows, before.knows, or_assoc, or_self]

theorem of_putValidator (data : ValidatorData) :
    first.Adds (first.putValidator data) data.publicKey [] [] where
  votes := by simp [RecordsVote]
  proposals := by simp [RecordsProposal]
  knows := knows_putValidator first data

theorem of_putAttestation (known : first.Knows publicKey) (data : AttestationData)
    (absent : first.attestations.get (attestationKey publicKey data.targetEpoch) = none) :
    first.Adds (first.putAttestation (attestationKey publicKey data.targetEpoch) data) publicKey
      [data.vote] [] where
  votes := by
    intro owner vote
    rw [recordsVote_putAttestation data absent, List.mem_singleton]
  proposals := (refl known).proposals
  knows := (refl known).knows

theorem of_putBlock (known : first.Knows publicKey) (data : BlockData)
    (absent : first.blocks.get (blockKey publicKey data.slot) = none) :
    first.Adds (first.putBlock (blockKey publicKey data.slot) data) publicKey []
      [⟨data.slot, data.signingRoot⟩] where
  votes := (refl known).votes
  proposals := by
    intro owner proposal
    rw [recordsProposal_putBlock data absent, List.mem_singleton]
  knows := (refl known).knows

end Trees.Adds

namespace SlashingProtectionDb

variable {env : Env} {publicKey : Bytes}

variable (db : SlashingProtectionDb)

theorem checkAndRecordAttestation_adds (healthy : env.Healthy) {vote : Vote}
    (wellFormed : db.trees.WellFormed) (known : db.trees.Knows publicKey)
    (noSource : db.trees.minimum publicKey .sourceEpoch = none)
    (noTarget : db.trees.minimum publicKey .targetEpoch = none)
    (apart : ∀ other, db.trees.RecordsVote publicKey other → vote.Apart other) :
    (db.checkAndRecordAttestation env publicKey vote.source vote.target vote.root).2 = .ok () ∧
      db.trees.Adds (db.checkAndRecordAttestation env publicKey vote.source vote.target
        vote.root).1.trees publicKey [vote] [] := by
  obtain ⟨data, registered⟩ := wellFormed.registered known
  rw [Trees.minimum_of_registered registered] at noSource noTarget
  have absent := wellFormed.absent_of_apart apart
  have compatible := wellFormed.compatible_of_apart registered.length_eq apart
  have allowed : Trees.AllowsVote data vote.source vote.target :=
    ⟨fun bound stored => (nomatch noSource.symm.trans stored),
      fun bound stored => (nomatch noTarget.symm.trans stored)⟩
  have fresh : db.trees.checkAttestation env publicKey vote.source vote.target vote.root =
      .ok (.fresh data) :=
    Trees.checkAttestation_of_allowed healthy registered absent allowed compatible
  rw [db.checkAndRecordAttestation_of_fresh healthy fresh]
  obtain rfl : data.publicKey = publicKey := registered.publicKey_eq
  have inserted := Trees.Adds.of_putAttestation known
    ⟨vote.source, vote.target, vote.root, env.now⟩ absent
  exact ⟨rfl, inserted.trans (.of_putValidator { data with updatedAt := env.now })⟩

theorem checkAndRecordBlock_adds (healthy : env.Healthy) {proposal : Proposal}
    (wellFormed : db.trees.WellFormed) (known : db.trees.Knows publicKey)
    (noSlot : db.trees.minimum publicKey .slot = none)
    (apart : ∀ other, db.trees.RecordsProposal publicKey other → proposal.slot ≠ other.slot) :
    (db.checkAndRecordBlock env publicKey proposal.slot proposal.root).2 = .ok () ∧
      db.trees.Adds (db.checkAndRecordBlock env publicKey proposal.slot proposal.root).1.trees
        publicKey [] [proposal] := by
  obtain ⟨data, registered⟩ := wellFormed.registered known
  rw [Trees.minimum_of_registered registered] at noSlot
  have absent := wellFormed.absent_of_slot apart
  have allowed : Trees.AllowsProposal data proposal.slot :=
    fun bound stored => nomatch noSlot.symm.trans stored
  have fresh : db.trees.checkBlock env publicKey proposal.slot proposal.root =
      .ok (.fresh data) := Trees.checkBlock_of_allowed healthy registered absent allowed
  rw [db.checkAndRecordBlock_of_fresh healthy fresh]
  obtain rfl : data.publicKey = publicKey := registered.publicKey_eq
  have inserted := Trees.Adds.of_putBlock known ⟨proposal.slot, proposal.root, env.now⟩ absent
  exact ⟨rfl, inserted.trans (.of_putValidator { data with updatedAt := env.now })⟩

theorem registerValidator_adds (healthy : env.Healthy) (size : publicKey.length = 48)
    (unknown : ¬ db.trees.Knows publicKey) :
    (db.registerValidator env publicKey).2 = .ok () ∧
      db.trees.Adds (db.registerValidator env publicKey).1.trees publicKey [] [] := by
  have absent : (db.trees.validators.tree.get publicKey).isSome = false := by
    simpa [Trees.Knows] using unknown
  simp only [registerValidator, size, show env.io = {} from healthy, Tree.containsKey_eq, absent,
    updateValidatorData]
  exact ⟨rfl, .of_putValidator _⟩

theorem setMinimum_adds (healthy : env.Healthy) (wellFormed : db.trees.WellFormed)
    (known : db.trees.Knows publicKey) (bound : Bound) (value : UInt64) :
    (db.setMinimum env publicKey bound value).2 = .ok () ∧
      db.trees.Adds (db.setMinimum env publicKey bound value).1.trees publicKey [] [] := by
  obtain ⟨data, registered⟩ := wellFormed.registered known
  have read := Trees.getValidatorData_of_registered healthy registered
  obtain rfl : data.publicKey = publicKey := registered.publicKey_eq
  have clear : env.io.insertValidator = none := by simp [show env.io = {} from healthy]
  cases bound <;>
    simp only [setMinimum, setMinSourceEpoch, setMinTargetEpoch, setMinSlot, updateMinimum, read,
      updateValidatorData, clear] <;>
    exact ⟨trivial, .of_putValidator _⟩

end SlashingProtectionDb

/-- A stage of an import that skips nothing. -/
structure ImportState.CleanStep (before after : ImportState) (publicKey : Bytes)
    (votes : List Vote) (proposals : List Proposal) : Prop where
  adds : before.db.trees.Adds after.db.trees publicKey votes proposals
  wellFormed : after.db.trees.WellFormed
  attestationsSkipped : after.result.attestationsSkipped = before.result.attestationsSkipped
  blocksSkipped : after.result.blocksSkipped = before.result.blocksSkipped

namespace ImportState.CleanStep

variable {first second third : ImportState} {publicKey : Bytes}
  {votes moreVotes : List Vote} {proposals moreProposals : List Proposal}

theorem trans (before : first.CleanStep second publicKey votes proposals)
    (after : second.CleanStep third publicKey moreVotes moreProposals) :
    first.CleanStep third publicKey (votes ++ moreVotes) (proposals ++ moreProposals) where
  adds := before.adds.trans after.adds
  wellFormed := after.wellFormed
  attestationsSkipped := after.attestationsSkipped.trans before.attestationsSkipped
  blocksSkipped := after.blocksSkipped.trans before.blocksSkipped

theorem knows (step : first.CleanStep second publicKey votes proposals) :
    second.db.trees.Knows publicKey :=
  (step.adds.knows publicKey).mpr (.inr rfl)

end ImportState.CleanStep

/-- The import of a file that skips nothing. -/
structure ImportState.CleanRun (before after : ImportState) (data : List InterchangeData) : Prop where
  wellFormed : after.db.trees.WellFormed
  attestationsSkipped : after.result.attestationsSkipped = before.result.attestationsSkipped
  blocksSkipped : after.result.blocksSkipped = before.result.blocksSkipped
  votes : ∀ owner vote, after.db.trees.RecordsVote owner vote ↔
    before.db.trees.RecordsVote owner vote ∨
      ∃ entry ∈ data, parseHexPubkey entry.pubkey = .ok owner ∧ vote ∈ entry.votes
  proposals : ∀ owner proposal, after.db.trees.RecordsProposal owner proposal ↔
    before.db.trees.RecordsProposal owner proposal ∨
      ∃ entry ∈ data, parseHexPubkey entry.pubkey = .ok owner ∧ proposal ∈ entry.proposals
  knows : ∀ owner, after.db.trees.Knows owner ↔
    before.db.trees.Knows owner ∨ ∃ entry ∈ data, parseHexPubkey entry.pubkey = .ok owner
  minima : ∀ entry ∈ data, ∀ owner, parseHexPubkey entry.pubkey = .ok owner → ∀ bound,
    after.db.trees.minimum owner bound = entry.maximum bound
  others : ∀ owner, (∀ entry ∈ data, parseHexPubkey entry.pubkey ≠ .ok owner) → ∀ bound,
    after.db.trees.minimum owner bound = before.db.trees.minimum owner bound

section Loops

variable {envs : Nat → Env} (healthy : ∀ call, (envs call).Healthy)

include healthy

theorem importAttestation_clean (publicKey : Bytes) (maxima : Option Epoch × Option Epoch)
    (state : ImportState) {attestation : SignedAttestation} {vote : Vote}
    (parsed : attestation.parse = .ok vote) (wellFormed : state.db.trees.WellFormed)
    (known : state.db.trees.Knows publicKey)
    (noSource : state.db.trees.minimum publicKey .sourceEpoch = none)
    (noTarget : state.db.trees.minimum publicKey .targetEpoch = none)
    (apart : ∀ other, state.db.trees.RecordsVote publicKey other → vote.Apart other) :
    ∃ next raised, importAttestation envs publicKey maxima state attestation = (next, .ok raised) ∧
      state.CleanStep next publicKey [vote] [] ∧
      next.db.trees.minimum = state.db.trees.minimum := by
  obtain ⟨granted, adds⟩ := state.db.checkAndRecordAttestation_adds (healthy state.calls)
    wellFormed known noSource noTarget apart
  have formed := (importAttestation_reaches envs publicKey maxima state attestation).wellFormed
    wellFormed
  simp only [importAttestation, parsed] at formed ⊢
  refine ⟨_, _, rfl, ⟨adds, formed, ?_, ?_⟩, state.db.checkAndRecordAttestation_minimum ..⟩ <;>
    simp [granted, Except.isOk, Except.toBool]

theorem importAttestations_clean (publicKey : Bytes) (attestations : List SignedAttestation)
    (maxima : Option Epoch × Option Epoch) (state : ImportState)
    (parse : ∀ attestation ∈ attestations, ∃ vote, attestation.parse = .ok vote)
    (wellFormed : state.db.trees.WellFormed) (known : state.db.trees.Knows publicKey)
    (noSource : state.db.trees.minimum publicKey .sourceEpoch = none)
    (noTarget : state.db.trees.minimum publicKey .targetEpoch = none)
    (fresh : ∀ vote ∈ attestations.filterMap (·.parse.toOption), ∀ other,
      state.db.trees.RecordsVote publicKey other → vote.Apart other)
    (apart : (attestations.filterMap (·.parse.toOption)).Pairwise Vote.Apart) :
    (∃ largest, (importAttestations envs publicKey maxima state attestations).2 = .ok largest) ∧
      state.CleanStep (importAttestations envs publicKey maxima state attestations).1 publicKey
        (attestations.filterMap (·.parse.toOption)) [] := by
  induction attestations generalizing maxima state with
  | nil => exact ⟨⟨maxima, rfl⟩, .refl known, wellFormed, rfl, rfl⟩
  | cons attestation rest ih =>
    obtain ⟨vote, parsed⟩ := parse attestation (by simp)
    have split : (attestation :: rest).filterMap (·.parse.toOption) =
        vote :: rest.filterMap (·.parse.toOption) := by
      simp [parsed, Except.toOption]
    rw [split] at fresh apart ⊢
    obtain ⟨here, later⟩ := List.pairwise_cons.mp apart
    obtain ⟨next, raised, made, step, minima⟩ := importAttestation_clean healthy publicKey maxima
      state parsed wellFormed known noSource noTarget (fresh vote (by simp))
    -- The remaining votes stay apart from what is recorded, now with this vote among it.
    have freshNext : ∀ vote ∈ rest.filterMap (·.parse.toOption), ∀ other,
        next.db.trees.RecordsVote publicKey other → vote.Apart other := by
      intro listed member other recorded
      rcases (step.adds.votes publicKey other).mp recorded with before | ⟨-, new⟩
      · exact fresh listed (List.mem_cons_of_mem _ member) other before
      · rw [List.mem_singleton.mp new]
        exact (here listed member).symm
    rw [importAttestations, made]
    obtain ⟨done, rests⟩ := ih raised next (fun other member => parse other (by simp [member]))
      step.wellFormed step.knows (by rw [minima, noSource]) (by rw [minima, noTarget]) freshNext later
    exact ⟨done, step.trans rests⟩

theorem importBlock_clean (publicKey : Bytes) (maxSlot : Option Slot) (state : ImportState)
    {block : SignedBlock} {proposal : Proposal} (parsed : block.parse = .ok proposal)
    (wellFormed : state.db.trees.WellFormed) (known : state.db.trees.Knows publicKey)
    (noSlot : state.db.trees.minimum publicKey .slot = none)
    (apart : ∀ other, state.db.trees.RecordsProposal publicKey other →
      proposal.slot ≠ other.slot) :
    ∃ next raised, importBlock envs publicKey maxSlot state block = (next, .ok raised) ∧
      state.CleanStep next publicKey [] [proposal] ∧
      next.db.trees.minimum = state.db.trees.minimum := by
  obtain ⟨granted, adds⟩ := state.db.checkAndRecordBlock_adds (healthy state.calls)
    wellFormed known noSlot apart
  have formed := (importBlock_reaches envs publicKey maxSlot state block).wellFormed wellFormed
  simp only [importBlock, parsed] at formed ⊢
  refine ⟨_, _, rfl, ⟨adds, formed, ?_, ?_⟩, state.db.checkAndRecordBlock_minimum ..⟩ <;>
    simp [granted, Except.isOk, Except.toBool]

theorem importBlocks_clean (publicKey : Bytes) (blocks : List SignedBlock)
    (maxSlot : Option Slot) (state : ImportState)
    (parse : ∀ block ∈ blocks, ∃ proposal, block.parse = .ok proposal)
    (wellFormed : state.db.trees.WellFormed) (known : state.db.trees.Knows publicKey)
    (noSlot : state.db.trees.minimum publicKey .slot = none)
    (fresh : ∀ proposal ∈ blocks.filterMap (·.parse.toOption), ∀ other,
      state.db.trees.RecordsProposal publicKey other → proposal.slot ≠ other.slot)
    (apart : (blocks.filterMap (·.parse.toOption)).Pairwise fun a b => a.slot ≠ b.slot) :
    (∃ largest, (importBlocks envs publicKey maxSlot state blocks).2 = .ok largest) ∧
      state.CleanStep (importBlocks envs publicKey maxSlot state blocks).1 publicKey []
        (blocks.filterMap (·.parse.toOption)) := by
  induction blocks generalizing maxSlot state with
  | nil => exact ⟨⟨maxSlot, rfl⟩, .refl known, wellFormed, rfl, rfl⟩
  | cons block rest ih =>
    obtain ⟨proposal, parsed⟩ := parse block (by simp)
    have split : (block :: rest).filterMap (·.parse.toOption) =
        proposal :: rest.filterMap (·.parse.toOption) := by
      simp [parsed, Except.toOption]
    rw [split] at fresh apart ⊢
    obtain ⟨here, later⟩ := List.pairwise_cons.mp apart
    obtain ⟨next, raised, made, step, minima⟩ := importBlock_clean healthy publicKey maxSlot
      state parsed wellFormed known noSlot (fresh proposal (by simp))
    have freshNext : ∀ proposal ∈ rest.filterMap (·.parse.toOption), ∀ other,
        next.db.trees.RecordsProposal publicKey other → proposal.slot ≠ other.slot := by
      intro listed member other recorded
      rcases (step.adds.proposals publicKey other).mp recorded with before | ⟨-, new⟩
      · exact fresh listed (List.mem_cons_of_mem _ member) other before
      · rw [List.mem_singleton.mp new]
        exact (here listed member).symm
    rw [importBlocks, made]
    obtain ⟨done, rests⟩ := ih raised next (fun other member => parse other (by simp [member]))
      step.wellFormed step.knows (by rw [minima, noSlot]) freshNext later
    exact ⟨done, step.trans rests⟩

variable {publicKey : Bytes}

variable (state : ImportState)

theorem importRegistration_clean (size : publicKey.length = 48)
    (wellFormed : state.db.trees.WellFormed) (unknown : ¬ state.db.trees.Knows publicKey) :
    (importRegistration envs publicKey state).2 = .ok () ∧
      state.CleanStep (importRegistration envs publicKey state).1 publicKey [] [] := by
  obtain ⟨done, adds⟩ := state.db.registerValidator_adds (healthy (state.calls + 1)) size unknown
  have formed := (importRegistration_reaches envs publicKey state).wellFormed wellFormed
  have asked : state.db.isRegistered (envs state.calls) publicKey = .ok false := by
    simpa [SlashingProtectionDb.isRegistered, show (envs state.calls).io = {} from healthy _,
      Trees.Knows] using unknown
  unfold importRegistration at formed ⊢
  rw [asked] at formed ⊢
  cases made : state.db.registerValidator (envs (state.calls + 1)) publicKey with
  | mk db outcome =>
    rw [made] at done adds
    cases done
    rw [made] at formed
    exact ⟨rfl, adds, formed, rfl, rfl⟩

theorem importMinimum_clean (bound : Bound) (maximum : Option UInt64) (state : ImportState)
    (wellFormed : state.db.trees.WellFormed) (known : state.db.trees.Knows publicKey) :
    (importMinimum envs (·.setMinimum · publicKey bound) maximum state).2 = .ok () ∧
      state.CleanStep (importMinimum envs (·.setMinimum · publicKey bound) maximum state).1
        publicKey [] [] := by
  cases maximum with
  | none => exact ⟨rfl, .refl known, wellFormed, rfl, rfl⟩
  | some value =>
    obtain ⟨done, adds⟩ := state.db.setMinimum_adds (healthy state.calls) wellFormed known bound value
    have formed : (state.db.setMinimum (envs state.calls) publicKey bound value).1.trees.WellFormed := by
      cases bound
      all_goals exact wellFormed.of_writes (state.db.updateMinimum_writes _ _ fun _ => rfl)
    exact ⟨done, adds, formed, rfl, rfl⟩

omit healthy in
theorem importMinimum_minimum (publicKey : Bytes) {bound other : Bound} (apart : other ≠ bound)
    (maximum : Option UInt64) (state : ImportState) (owner : Bytes) :
    (importMinimum envs (·.setMinimum · publicKey bound) maximum state).1.db.trees.minimum
      owner other = state.db.trees.minimum owner other := by
  have settled := importMinimum_settledBy envs publicKey bound
    (fun kind => if kind = bound then maximum else none) state
  simp only [↓reduceIte] at settled
  rcases settled.1 owner other with same | ⟨-, given, -⟩
  · exact same
  · simp [apart] at given

omit healthy in
theorem andThen_clean {α β : Type} {before : ImportState} {votes moreVotes : List Vote}
    {proposals moreProposals : List Proposal} {stage : ImportState × Except ValidatorError α}
    {value : α} {next : ImportState → α → ImportState × Except ValidatorError β} {result : β}
    (done : stage.2 = .ok value) (first : before.CleanStep stage.1 publicKey votes proposals)
    (second : (next stage.1 value).2 = .ok result ∧
      stage.1.CleanStep (next stage.1 value).1 publicKey moreVotes moreProposals) :
    (ImportState.andThen stage next).2 = .ok result ∧
      before.CleanStep (ImportState.andThen stage next).1 publicKey (votes ++ moreVotes)
        (proposals ++ moreProposals) := by
  obtain ⟨state, outcome⟩ := stage
  cases done
  exact ⟨second.1, first.trans second.2⟩

theorem importValidator_clean {entry : InterchangeData} (clean : entry.Clean publicKey)
    (wellFormed : state.db.trees.WellFormed) (unknown : ¬ state.db.trees.Knows publicKey) :
    (importValidator envs state entry).2 = .ok () ∧
      state.CleanStep (importValidator envs state entry).1 publicKey entry.votes
        entry.proposals := by
  have noMinimum := Trees.minimum_of_unknown unknown
  have noVote : ∀ vote, ¬ state.db.trees.RecordsVote publicKey vote := by
    rintro vote ⟨data, found, -⟩
    obtain ⟨validator, -, registered, -⟩ := wellFormed.vote_of_get found
    exact unknown registered.knows
  have noProposal : ∀ proposal, ¬ state.db.trees.RecordsProposal publicKey proposal := by
    rintro proposal ⟨data, found, -⟩
    obtain ⟨validator, -, registered, -⟩ := wellFormed.block_of_get found
    exact unknown registered.knows
  simp only [importValidator, clean.parsed]
  -- Only two of the six stages add records: the votes, and after two minima the proposals.
  suffices whole : (_ : ImportState × Except ValidatorError Unit).2 = .ok () ∧
      state.CleanStep _ publicKey ([] ++ (entry.votes ++ ([] ++ ([] ++ ([] ++ [])))))
        ([] ++ ([] ++ ([] ++ ([] ++ (entry.proposals ++ []))))) by
    simpa using whole
  obtain ⟨done, step⟩ := importRegistration_clean healthy state clean.size wellFormed unknown
  have minima := importRegistration_minimum envs publicKey state
  have unvoted : ∀ vote, ¬ (importRegistration envs publicKey state).1.db.trees.RecordsVote
      publicKey vote := by
    intro vote
    simpa [step.adds.votes] using noVote vote
  have unproposed : ∀ proposal, ¬ (importRegistration envs publicKey state).1.db.trees.RecordsProposal
      publicKey proposal := by
    intro proposal
    simpa [step.adds.proposals] using noProposal proposal
  refine andThen_clean done step ?_
  obtain ⟨⟨largest, done⟩, voted⟩ := importAttestations_clean healthy publicKey
    entry.signedAttestations (none, none) (importRegistration envs publicKey state).1
    clean.votesParse step.wellFormed step.knows (by rw [minima, noMinimum])
    (by rw [minima, noMinimum]) (fun vote _ other recorded => absurd recorded (unvoted other))
    clean.votesApart
  refine andThen_clean done voted ?_
  obtain ⟨done, sourced⟩ := importMinimum_clean healthy .sourceEpoch largest.1 _ voted.wellFormed
    voted.knows
  refine andThen_clean done sourced ?_
  obtain ⟨done, targeted⟩ := importMinimum_clean healthy .targetEpoch largest.2 _ sourced.wellFormed
    sourced.knows
  refine andThen_clean done targeted ?_
  obtain ⟨⟨maxSlot, done⟩, proposed⟩ := importBlocks_clean healthy publicKey entry.signedBlocks none
    _ clean.blocksParse targeted.wellFormed targeted.knows
    (by rw [importMinimum_minimum publicKey (by decide), importMinimum_minimum publicKey (by decide),
      importAttestations_minimum, minima, noMinimum])
    (fun proposal _ other recorded => by
      have early := ((voted.trans sourced).trans targeted).adds.proposals publicKey other
      exact absurd (by simpa using early.mp recorded) (unproposed other))
    clean.slotsApart
  refine andThen_clean done proposed ?_
  exact importMinimum_clean healthy .slot maxSlot _ proposed.wellFormed proposed.knows

theorem importValidator_minima {entry : InterchangeData} (clean : entry.Clean publicKey)
    (wellFormed : state.db.trees.WellFormed) (unknown : ¬ state.db.trees.Knows publicKey)
    (owner : Bytes) (bound : Bound) :
    (importValidator envs state entry).1.db.trees.minimum owner bound =
      if owner = publicKey then entry.maximum bound else state.db.trees.minimum owner bound := by
  obtain ⟨done, -⟩ := importValidator_clean healthy state clean wellFormed unknown
  obtain ⟨settles, set⟩ := importValidator_settledBy envs state entry clean.parsed
  by_cases same : owner = publicKey
  · subst same
    rw [if_pos rfl]
    cases largest : entry.maximum bound with
    | some value =>
      rw [← largest]
      exact set () done bound (by cases bound <;> simp) (by simp [largest])
    | none =>
      -- Nothing is listed, so the minimum stays as unset as it was.
      rcases settles owner bound with same | ⟨-, given, -⟩
      · exact same.trans (Trees.minimum_of_unknown unknown bound)
      · simp [largest] at given
  · rw [if_neg same]
    rcases settles owner bound with unchanged | ⟨contra, -⟩
    · exact unchanged
    · exact absurd contra same

theorem importValidators_clean (state : ImportState) (data : List InterchangeData)
    (wellFormed : state.db.trees.WellFormed)
    (clean : ∀ entry ∈ data, ∃ publicKey, entry.Clean publicKey ∧
      ¬ state.db.trees.Knows publicKey)
    (distinct : data.Pairwise fun a b => parseHexPubkey a.pubkey ≠ parseHexPubkey b.pubkey) :
    (importValidators envs state data).2 = .ok () ∧
      state.CleanRun (importValidators envs state data).1 data := by
  induction data generalizing state with
  | nil =>
    refine ⟨rfl, wellFormed, rfl, rfl, ?_, ?_, ?_, ?_, ?_⟩ <;> simp [importValidators]
  | cons entry rest ih =>
    obtain ⟨publicKey, cleanHere, unknown⟩ := clean entry (by simp)
    obtain ⟨apart, distinctRest⟩ := List.pairwise_cons.mp distinct
    obtain ⟨done, step⟩ := importValidator_clean healthy state cleanHere wellFormed unknown
    have minima := importValidator_minima healthy state cleanHere wellFormed unknown
    rw [importValidators]
    generalize importValidator envs state entry = stage at done step minima ⊢
    obtain ⟨next, outcome⟩ := stage
    cases done
    have different : ∀ other ∈ rest, parseHexPubkey other.pubkey ≠ .ok publicKey :=
      fun other member same => apart other member (cleanHere.parsed.trans same.symm)
    -- The later validators are other ones, so they are still unknown.
    obtain ⟨finished, run⟩ := ih next step.wellFormed (fun other member => by
      obtain ⟨otherKey, cleanOther, unknownOther⟩ := clean other (List.mem_cons_of_mem _ member)
      refine ⟨otherKey, cleanOther, fun known => ?_⟩
      rcases (step.adds.knows otherKey).mp known with before | rfl
      · exact unknownOther before
      · exact different other member cleanOther.parsed) distinctRest
    have named : ∀ owner, parseHexPubkey entry.pubkey = .ok owner ↔ owner = publicKey := by
      intro owner
      rw [cleanHere.parsed, Except.ok.injEq, eq_comm]
    refine ⟨finished, run.wellFormed, run.attestationsSkipped.trans step.attestationsSkipped,
      run.blocksSkipped.trans step.blocksSkipped, ?_, ?_, ?_, ?_, ?_⟩
    · intro owner vote
      refine (run.votes owner vote).trans ?_
      rw [step.adds.votes owner vote, List.exists_mem_cons_iff, named, or_assoc]
    · intro owner proposal
      refine (run.proposals owner proposal).trans ?_
      rw [step.adds.proposals owner proposal, List.exists_mem_cons_iff, named, or_assoc]
    · intro owner
      refine (run.knows owner).trans ?_
      rw [step.adds.knows owner, List.exists_mem_cons_iff, named, or_assoc]
    · intro other member owner parsed bound
      rcases List.mem_cons.mp member with rfl | later
      · obtain rfl := (named owner).mp parsed
        exact (run.others owner different bound).trans ((minima owner bound).trans (if_pos rfl))
      · exact run.minima other later owner parsed bound
    · intro owner absent bound
      have other : owner ≠ publicKey := fun same => absent entry (by simp) ((named owner).mpr same)
      refine (run.others owner (fun later member => absent later (by simp [member])) bound).trans ?_
      exact (minima owner bound).trans (if_neg other)

end Loops

end Hsm
