import Hsm.Validator.Invariant

/-! Validators share the trees of a database without seeing each other. -/

namespace Hsm

/-- Two databases hold the same for one validator. -/
structure Trees.SameView (publicKey : Bytes) (first second : Trees) : Prop where
  entry : first.validators.tree.get publicKey = second.validators.tree.get publicKey
  votes : ∀ key, attestationKeyPrefix publicKey <+: key →
    first.attestations.get key = second.attestations.get key
  blocks : ∀ key, blockKeyPrefix publicKey <+: key → first.blocks.get key = second.blocks.get key

namespace Trees.SameView

variable {publicKey : Bytes} {first second third : Trees}

theorem refl (trees : Trees) : SameView publicKey trees trees :=
  ⟨rfl, fun _ _ => rfl, fun _ _ => rfl⟩

theorem trans (before : SameView publicKey first second) (after : SameView publicKey second third) :
    SameView publicKey first third where
  entry := before.entry.trans after.entry
  votes := fun key under => (before.votes key under).trans (after.votes key under)
  blocks := fun key under => (before.blocks key under).trans (after.blocks key under)

theorem putValidator (same : SameView publicKey first second) (data : ValidatorData) :
    SameView publicKey (first.putValidator data) (second.putValidator data) where
  entry := by simp only [Trees.putValidator, ValidatorTable.put, Tree.get_insert, same.entry]
  votes := same.votes
  blocks := same.blocks

theorem putAttestation (same : SameView publicKey first second) (key : Bytes)
    (data : AttestationData) :
    SameView publicKey (first.putAttestation key data) (second.putAttestation key data) where
  entry := same.entry
  votes := by
    intro other under
    simp only [putAttestation_attestations, Tree.get_insert, same.votes other under]
  blocks := same.blocks

theorem putBlock (same : SameView publicKey first second) (key : Bytes) (data : BlockData) :
    SameView publicKey (first.putBlock key data) (second.putBlock key data) where
  entry := same.entry
  votes := same.votes
  blocks := by
    intro other under
    simp only [putBlock_blocks, Tree.get_insert, same.blocks other under]

theorem of_write {owner : Bytes} (width : publicKey.length = owner.length)
    (apart : owner ≠ publicKey) (write : Write owner first second) :
    SameView publicKey second first := by
  -- A record key under the prefix of a key of equal length would be that key's own.
  have outside : ∀ {key number}, recordKeyPrefix publicKey <+: key → recordKey owner number ≠ key := by
    rintro key number under rfl
    exact apart (publicKey_of_recordKeyPrefix under width).symm
  cases write with
  | validator data names =>
    refine ⟨?_, fun _ _ => rfl, fun _ _ => rfl⟩
    have other : data.publicKey ≠ publicKey := names ▸ apart
    simp [Trees.putValidator, ValidatorTable.put, Tree.get_insert_of_ne _ _ other]
  | vote validator data =>
    refine ⟨rfl, fun key under => ?_, fun _ _ => rfl⟩
    exact Tree.get_insert_of_ne _ _ (outside under)
  | block validator data =>
    refine ⟨rfl, fun _ _ => rfl, fun key under => ?_⟩
    exact Tree.get_insert_of_ne _ _ (outside under)

theorem of_writes {owner : Bytes} (width : publicKey.length = owner.length)
    (apart : owner ≠ publicKey) (writes : Writes owner first second) :
    SameView publicKey second first := by
  induction writes with
  | refl => exact refl first
  | tail _ last ih => exact (of_write width apart last).trans ih

variable (same : SameView publicKey first second)

include same

theorem getValidatorData (env : Env) :
    first.getValidatorData env publicKey = second.getValidatorData env publicKey := by
  simp only [Trees.getValidatorData, same.entry]

theorem scanVotes : first.attestations.scanPrefix (attestationKeyPrefix publicKey) =
    second.attestations.scanPrefix (attestationKeyPrefix publicKey) :=
  Tree.scanPrefix_congr same.votes

theorem scanBlocks : first.blocks.scanPrefix (blockKeyPrefix publicKey) =
    second.blocks.scanPrefix (blockKeyPrefix publicKey) :=
  Tree.scanPrefix_congr same.blocks

theorem checkAttestation (env : Env) (source target : Epoch) (root : SigningRoot) :
    first.checkAttestation env publicKey source target root =
      second.checkAttestation env publicKey source target root := by
  simp only [Trees.checkAttestation, same.getValidatorData, same.scanVotes,
    same.votes _ (recordKeyPrefix_recordKey publicKey target)]

theorem checkBlock (env : Env) (slot : Slot) (root : SigningRoot) :
    first.checkBlock env publicKey slot root = second.checkBlock env publicKey slot root := by
  simp only [Trees.checkBlock, same.getValidatorData,
    same.blocks _ (recordKeyPrefix_recordKey publicKey slot)]

end Trees.SameView

namespace SlashingProtectionDb

variable {publicKey : Bytes} {first second : SlashingProtectionDb}
  (same : Trees.SameView publicKey first.trees second.trees)

include same

variable (env : Env)

theorem updateValidatorData_alike (data : ValidatorData) :
    (first.updateValidatorData env data).2 = (second.updateValidatorData env data).2 ∧
      Trees.SameView publicKey (first.updateValidatorData env data).1.trees
        (second.updateValidatorData env data).1.trees := by
  unfold updateValidatorData
  cases env.io.insertValidator with
  | some e => exact ⟨rfl, same⟩
  | none => exact ⟨rfl, same.putValidator data⟩

theorem persistRecord_alike (data : ValidatorData) (insert : Trees → Trees)
    (insertError : SlashingError) (record : String) (signed : SlashingStats → SlashingStats)
    (inserted : Trees.SameView publicKey (insert first.trees) (insert second.trees)) :
    (first.persistRecord env data insert insertError record signed).2 =
        (second.persistRecord env data insert insertError record signed).2 ∧
      Trees.SameView publicKey
        (first.persistRecord env data insert insertError record signed).1.trees
        (second.persistRecord env data insert insertError record signed).1.trees := by
  -- The store fails at the same step for both, so they end in the same of the four ways.
  cases recordFault : env.io.insertRecord with
  | some e => simpa [persistRecord, recordFault] using same
  | none =>
    cases entryFault : env.io.insertValidator with
    | some e => simpa [persistRecord, recordFault, updateValidatorData, entryFault] using inserted
    | none =>
      have touched := inserted.putValidator { data with updatedAt := env.now }
      cases flushFault : env.io.flush with
      | some e =>
        simpa [persistRecord, recordFault, updateValidatorData, entryFault, flushFault] using touched
      | none =>
        simp only [persistRecord, recordFault, updateValidatorData, entryFault, flushFault]
        exact ⟨trivial, touched⟩

theorem updateMinimum_alike (change : ValidatorData → ValidatorData) :
    (first.updateMinimum env publicKey change).2 = (second.updateMinimum env publicKey change).2 ∧
      Trees.SameView publicKey (first.updateMinimum env publicKey change).1.trees
        (second.updateMinimum env publicKey change).1.trees := by
  simp only [updateMinimum, same.getValidatorData]
  cases second.trees.getValidatorData env publicKey with
  | error e => exact ⟨rfl, same⟩
  | ok data => exact updateValidatorData_alike same env _

theorem registerValidator_alike :
    (first.registerValidator env publicKey).2 = (second.registerValidator env publicKey).2 ∧
      Trees.SameView publicKey (first.registerValidator env publicKey).1.trees
        (second.registerValidator env publicKey).1.trees := by
  simp only [registerValidator, Tree.containsKey_eq, same.entry]
  split
  · split
    · exact ⟨rfl, same⟩
    · split
      · exact ⟨rfl, same⟩
      · exact updateValidatorData_alike same env _
  · exact ⟨rfl, same⟩

theorem checkAndRecordAttestation_alike (source target : Epoch) (root : SigningRoot) :
    (first.checkAndRecordAttestation env publicKey source target root).2 =
        (second.checkAndRecordAttestation env publicKey source target root).2 ∧
      Trees.SameView publicKey
        (first.checkAndRecordAttestation env publicKey source target root).1.trees
        (second.checkAndRecordAttestation env publicKey source target root).1.trees := by
  simp only [checkAndRecordAttestation, same.checkAttestation]
  cases second.trees.checkAttestation env publicKey source target root with
  | error refusal => exact ⟨rfl, same⟩
  | ok verdict =>
    cases verdict with
    | repeated => exact ⟨rfl, same⟩
    | fresh data => exact persistRecord_alike same env data _ _ _ _ (same.putAttestation _ _)

theorem checkAndRecordBlock_alike (slot : Slot) (root : SigningRoot) :
    (first.checkAndRecordBlock env publicKey slot root).2 =
        (second.checkAndRecordBlock env publicKey slot root).2 ∧
      Trees.SameView publicKey (first.checkAndRecordBlock env publicKey slot root).1.trees
        (second.checkAndRecordBlock env publicKey slot root).1.trees := by
  simp only [checkAndRecordBlock, same.checkBlock]
  cases second.trees.checkBlock env publicKey slot root with
  | error refusal => exact ⟨rfl, same⟩
  | ok verdict =>
    cases verdict with
    | repeated => exact ⟨rfl, same⟩
    | fresh data => exact persistRecord_alike same env data _ _ _ _ (same.putBlock _ _)

theorem getValidatorSummary_alike :
    first.getValidatorSummary env publicKey = second.getValidatorSummary env publicKey := by
  simp only [getValidatorSummary, same.getValidatorData, same.scanVotes, same.scanBlocks]

theorem getAttestationRecords_alike :
    first.getAttestationRecords env publicKey = second.getAttestationRecords env publicKey := by
  simp only [getAttestationRecords, same.scanVotes]

theorem getBlockRecords_alike :
    first.getBlockRecords env publicKey = second.getBlockRecords env publicKey := by
  simp only [getBlockRecords, same.scanBlocks]

theorem serve_alike (operation : Operation) (env : Env) :
    (first.serve ⟨publicKey, operation, env⟩).2 = (second.serve ⟨publicKey, operation, env⟩).2 ∧
      Trees.SameView publicKey (first.serve ⟨publicKey, operation, env⟩).1.trees
        (second.serve ⟨publicKey, operation, env⟩).1.trees := by
  cases operation with
  | registerValidator =>
    obtain ⟨result, view⟩ := registerValidator_alike same env
    exact ⟨congrArg Reply.done result, view⟩
  | isRegistered =>
    simp only [serve, isRegistered, Tree.containsKey_eq, same.entry]
    exact ⟨trivial, same⟩
  | getValidatorSummary => exact ⟨congrArg Reply.summary (getValidatorSummary_alike same env), same⟩
  | checkAndRecordAttestation vote =>
    obtain ⟨result, view⟩ := checkAndRecordAttestation_alike same env vote.source vote.target vote.root
    exact ⟨congrArg Reply.signed result, view⟩
  | checkAndRecordBlock proposal =>
    obtain ⟨result, view⟩ := checkAndRecordBlock_alike same env proposal.slot proposal.root
    exact ⟨congrArg Reply.signed result, view⟩
  | getAttestationRecords =>
    exact ⟨congrArg Reply.attestations (getAttestationRecords_alike same env), same⟩
  | getBlockRecords => exact ⟨congrArg Reply.blocks (getBlockRecords_alike same env), same⟩
  | setMinSourceEpoch epoch | setMinTargetEpoch epoch | setMinSlot epoch =>
    obtain ⟨result, view⟩ := updateMinimum_alike same env _
    exact ⟨congrArg Reply.done result, view⟩

omit same in
def answer (publicKey : Bytes) (db : SlashingProtectionDb) (request : Request) :
    SlashingProtectionDb × List Reply :=
  ((db.serve request).1, if request.publicKey = publicKey then [(db.serve request).2] else [])

omit same in
/-- Deleting the requests of all other validators changes nothing for a validator. -/
theorem others_unseen (db : SlashingProtectionDb) (publicKey : Bytes)
    (size : publicKey.length = 48) (requests : List Request)
    (sizes : ∀ request ∈ requests, request.publicKey.length = 48) (env : Env) :
    (trace (answer publicKey) db requests).2 =
        (trace (answer publicKey) db (requests.filter (·.publicKey = publicKey))).2 ∧
      (trace (answer publicKey) db requests).1.getAttestationRecords env publicKey =
        (trace (answer publicKey) db (requests.filter (·.publicKey = publicKey))).1.getAttestationRecords
          env publicKey ∧
      (trace (answer publicKey) db requests).1.getBlockRecords env publicKey =
        (trace (answer publicKey) db (requests.filter (·.publicKey = publicKey))).1.getBlockRecords
          env publicKey ∧
      (trace (answer publicKey) db requests).1.getValidatorSummary env publicKey =
        (trace (answer publicKey) db (requests.filter (·.publicKey = publicKey))).1.getValidatorSummary
          env publicKey := by
  have ends := trace_filter (answer publicKey)
    (fun first second => Trees.SameView publicKey first.trees second.trees)
    (fun request => request.publicKey = publicKey)
    (fun first second request same own => by
      obtain ⟨owner, operation, env⟩ := request
      obtain rfl : owner = publicKey := by simpa using own
      obtain ⟨reply, view⟩ := serve_alike same operation env
      exact ⟨by simp [answer, reply], view⟩)
    (fun first second request same width other => by
      have apart : request.publicKey ≠ publicKey := by simpa using other
      have unchanged := Trees.SameView.of_writes (size.trans width.symm) apart
        (first.serve_writes request)
      exact ⟨by simp [answer, apart], unchanged.trans same⟩)
    requests sizes db db (Trees.SameView.refl db.trees)
  exact ⟨ends.1, getAttestationRecords_alike ends.2 env, getBlockRecords_alike ends.2 env,
    getValidatorSummary_alike ends.2 env⟩

end SlashingProtectionDb

namespace Sample

def colons : Bytes := List.replicate 48 0x3a

def shared : List Request :=
  [⟨key, .registerValidator, env⟩, ⟨colons, .registerValidator, env⟩,
    ⟨colons, .checkAndRecordAttestation ⟨1, 2, .filled 1⟩, env⟩,
    ⟨key, .checkAndRecordAttestation ⟨1, 2, .filled 2⟩, env⟩]

end Sample

open SlashingProtectionDb in
theorem others_unseen_shared :
    (trace (answer Sample.key) .new Sample.shared).2 =
        (trace (answer Sample.key) .new
          (Sample.shared.filter (·.publicKey = Sample.key))).2 ∧
      (trace (answer Sample.key) .new Sample.shared).1.getAttestationRecords Sample.env Sample.key =
        (trace (answer Sample.key) .new
          (Sample.shared.filter (·.publicKey = Sample.key))).1.getAttestationRecords Sample.env
            Sample.key := by
  have unseen := others_unseen .new Sample.key (by decide) Sample.shared (by decide) Sample.env
  exact ⟨unseen.1, unseen.2.1⟩

end Hsm
