import Hsm.Validator.SlashingDb

/-! What each operation of the slashing protection database decides and changes. -/

namespace Hsm

theorem recordKey_eq (publicKey : Bytes) (number : UInt64) :
    recordKey publicKey number = compositeKey publicKey 0x3a (toBeBytes number) := by
  simp [recordKey, recordKeyPrefix, ownerPrefix, compositeKey]

@[simp] theorem recordKey_inj {publicKey other : Bytes} {number last : UInt64} :
    recordKey publicKey number = recordKey other last ↔ publicKey = other ∧ number = last := by
  rw [recordKey_eq, recordKey_eq, compositeKey_inj (by simp), toBeBytes_injective.eq_iff]

theorem recordKeyPrefix_recordKey (publicKey : Bytes) (number : UInt64) :
    recordKeyPrefix publicKey <+: recordKey publicKey number := by
  rw [recordKey_eq]
  exact ownerPrefix_compositeKey ..

theorem publicKey_of_recordKeyPrefix {publicKey other : Bytes} {number : UInt64}
    (under : recordKeyPrefix publicKey <+: recordKey other number)
    (width : publicKey.length = other.length) : publicKey = other := by
  rw [recordKey_eq] at under
  exact owner_of_ownerPrefix under width

namespace Trees

def Registered (trees : Trees) (publicKey : Bytes) (data : ValidatorData) : Prop :=
  trees.validators.tree.get publicKey = some (.readable data)

variable {trees : Trees} {publicKey : Bytes}

variable {data : ValidatorData}

theorem Registered.publicKey_eq (registered : trees.Registered publicKey data) :
    data.publicKey = publicKey :=
  trees.validators.keyed publicKey data registered

theorem Registered.length_eq (registered : trees.Registered publicKey data) :
    publicKey.length = 48 := by
  rw [← registered.publicKey_eq]
  exact data.size

theorem getValidatorData_ok {env : Env} (read : trees.getValidatorData env publicKey = .ok data) :
    trees.Registered publicKey data := by
  -- Only the branch without a store error and with a decodable entry returns data.
  unfold getValidatorData at read
  split at read
  · cases read
  · split at read
    · cases read
    · rename_i encoded found
      cases encoded with
      | readable value =>
        simp only [Stored.decode, Except.ok.injEq] at read
        subst read
        exact found
      | unreadable text => simp [Stored.decode] at read

theorem getValidatorData_of_registered {env : Env} (healthy : env.Healthy)
    (registered : trees.Registered publicKey data) :
    trees.getValidatorData env publicKey = .ok data := by
  unfold Registered at registered
  simp [getValidatorData, show env.io = {} from healthy, registered, Stored.decode]

end Trees

theorem requireMinimum_ok {minimum : Option UInt64} {tooLow : UInt64 → Bool}
    {refused : UInt64 → SlashingError} :
    requireMinimum minimum tooLow refused = .ok () ↔
      ∀ bound, minimum = some bound → tooLow bound = false := by
  cases minimum with
  | none => simp [requireMinimum]
  | some bound => by_cases low : tooLow bound = true <;> simp [requireMinimum, low]

def Compatible (source target otherSource otherTarget : Epoch) : Prop :=
  ¬ Surrounds source target otherSource otherTarget ∧
    ¬ Surrounds otherSource otherTarget source target

variable {source target : Epoch}

theorem Compatible.symm {otherSource otherTarget : Epoch}
    (compatible : Compatible source target otherSource otherTarget) :
    Compatible otherSource otherTarget source target :=
  ⟨compatible.2, compatible.1⟩

theorem scanAttestations_ok {env : Env} {index : Nat}
    {items : List (Bytes × Stored AttestationData)}
    (passed : scanAttestations env source target index items = .ok ()) :
    ∀ item ∈ items, ∃ existing, item.2 = .readable existing ∧
      Compatible source target existing.sourceEpoch existing.targetEpoch := by
  -- The loop reaches the next item only after both surround tests on this one failed.
  induction items generalizing index with
  | nil => simp
  | cons item rest ih =>
    obtain ⟨key, value⟩ := item
    simp only [scanAttestations] at passed
    split at passed
    · cases passed
    · cases value with
      | unreadable text => simp [Stored.decode] at passed
      | readable existing =>
        simp only [Stored.decode] at passed
        split at passed
        · cases passed
        · rename_i surrounding
          split at passed
          · cases passed
          · rename_i surrounded
            intro other member
            rcases List.mem_cons.mp member with rfl | later
            · exact ⟨existing, rfl, surrounding, surrounded⟩
            · exact ih passed other later

theorem scanAttestations_of_compatible {env : Env} (healthy : env.Healthy) {index : Nat}
    {items : List (Bytes × Stored AttestationData)}
    (compatible : ∀ item ∈ items, ∃ existing, item.2 = .readable existing ∧
      Compatible source target existing.sourceEpoch existing.targetEpoch) :
    scanAttestations env source target index items = .ok () := by
  induction items generalizing index with
  | nil => rfl
  | cons item rest ih =>
    obtain ⟨key, value⟩ := item
    obtain ⟨existing, read, surrounding, surrounded⟩ := compatible (key, value) (by simp)
    simp only at read
    subst read
    have clear : env.io.scanFault index = none := by
      simp [show env.io = {} from healthy, SledFaults.scanFault]
    simp only [scanAttestations, clear, Stored.decode]
    have first : ¬ (source < existing.sourceEpoch ∧ target > existing.targetEpoch) := surrounding
    have second : ¬ (source > existing.sourceEpoch ∧ target < existing.targetEpoch) := surrounded
    rw [if_neg first, if_neg second]
    exact ih fun other member => compatible other (by simp [member])

namespace Trees

def AllowsVote (data : ValidatorData) (source target : Epoch) : Prop :=
  (∀ bound, data.minSourceEpoch = some bound → bound ≤ source) ∧
    ∀ bound, data.minTargetEpoch = some bound → bound < target

def VotesCompatible (trees : Trees) (publicKey : Bytes) (source target : Epoch) : Prop :=
  ∀ key stored, attestationKeyPrefix publicKey <+: key → trees.attestations.get key = some stored →
    ∃ existing, stored = .readable existing ∧
      Compatible source target existing.sourceEpoch existing.targetEpoch

variable {trees : Trees} {env : Env} {publicKey : Bytes} {source target : Epoch}
    {root : SigningRoot} {data : ValidatorData}

theorem checkAttestation_fresh
    (checked : trees.checkAttestation env publicKey source target root = .ok (.fresh data)) :
    trees.Registered publicKey data ∧
      trees.attestations.get (attestationKey publicKey target) = none ∧
      AllowsVote data source target ∧ trees.VotesCompatible publicKey source target := by
  unfold checkAttestation at checked
  cases read : trees.getValidatorData env publicKey with
  | error e => simp [read] at checked
  | ok found =>
    simp only [read] at checked
    split at checked
    · cases checked
    · cases record : trees.attestations.get (attestationKey publicKey target) with
      | some existing =>
        simp only [record] at checked
        split at checked
        · cases checked
        · split at checked <;> cases checked
      | none =>
        simp only [record, Bind.bind, Except.bind] at checked
        -- Each of the three checks must have passed before the verdict is given.
        split at checked
        · cases checked
        · rename_i sourcePassed
          split at checked
          · cases checked
          · rename_i targetPassed
            split at checked
            · cases checked
            · rename_i scanPassed
              cases checked
              have sources := requireMinimum_ok.mp sourcePassed
              have targets := requireMinimum_ok.mp targetPassed
              refine ⟨getValidatorData_ok read, rfl, ⟨?_, ?_⟩, ?_⟩
              · intro bound stored
                have low := sources bound stored
                simpa using low
              · intro bound stored
                have low := targets bound stored
                simpa using low
              · intro key stored under found
                exact scanAttestations_ok scanPassed (key, stored)
                  (Tree.mem_scanPrefix.mpr ⟨under, found⟩)

theorem checkAttestation_of_allowed (healthy : env.Healthy)
    (registered : trees.Registered publicKey data)
    (absent : trees.attestations.get (attestationKey publicKey target) = none)
    (allowed : AllowsVote data source target)
    (compatible : trees.VotesCompatible publicKey source target) :
    trees.checkAttestation env publicKey source target root = .ok (.fresh data) := by
  have sourcePassed : requireMinimum data.minSourceEpoch (fun bound => source < bound)
      (.sourceEpochTooLow source) = .ok () :=
    requireMinimum_ok.mpr fun bound stored => by simpa using allowed.1 bound stored
  have targetPassed : requireMinimum data.minTargetEpoch (fun bound => target ≤ bound)
      (.targetEpochTooLow target) = .ok () :=
    requireMinimum_ok.mpr fun bound stored => by simpa using allowed.2 bound stored
  have scanPassed : scanAttestations env source target 0
      (trees.attestations.scanPrefix (attestationKeyPrefix publicKey)) = .ok () := by
    apply scanAttestations_of_compatible healthy
    intro item member
    obtain ⟨key, stored⟩ := item
    obtain ⟨under, found⟩ := Tree.mem_scanPrefix.mp member
    exact compatible key stored under found
  have clear : env.io.getRecord = none := by simp [show env.io = {} from healthy]
  simp [checkAttestation, getValidatorData_of_registered healthy registered, clear, absent,
    sourcePassed, targetPassed, scanPassed, Bind.bind, Except.bind]

theorem checkAttestation_repeated
    (checked : trees.checkAttestation env publicKey source target root = .ok .repeated) :
    (∃ data, trees.Registered publicKey data) ∧
      ∃ existing, trees.attestations.get (attestationKey publicKey target) =
        some (.readable existing) ∧ existing.signingRoot = root := by
  unfold checkAttestation at checked
  cases read : trees.getValidatorData env publicKey with
  | error e => simp [read] at checked
  | ok found =>
    simp only [read] at checked
    split at checked
    · cases checked
    · cases record : trees.attestations.get (attestationKey publicKey target) with
      | none =>
        simp only [record, Bind.bind, Except.bind] at checked
        split at checked
        · cases checked
        · split at checked
          · cases checked
          · split at checked <;> cases checked
      | some stored =>
        cases stored with
        | unreadable text => simp [record, Stored.decode] at checked
        | readable existing =>
          simp only [record, Stored.decode] at checked
          split at checked
          · cases checked
          · rename_i same
            exact ⟨⟨found, getValidatorData_ok read⟩, existing, rfl, by simpa using same⟩

theorem checkAttestation_of_recorded (healthy : env.Healthy)
    (registered : trees.Registered publicKey data) {existing : AttestationData}
    (recorded : trees.attestations.get (attestationKey publicKey target) = some (.readable existing))
    (same : existing.signingRoot = root) :
    trees.checkAttestation env publicKey source target root = .ok .repeated := by
  have clear : env.io.getRecord = none := by simp [show env.io = {} from healthy]
  simp [checkAttestation, getValidatorData_of_registered healthy registered, clear, recorded,
    Stored.decode, same]

def AllowsProposal (data : ValidatorData) (slot : Slot) : Prop :=
  ∀ bound, data.minSlot = some bound → bound < slot

variable {slot : Slot}

theorem checkBlock_fresh (checked : trees.checkBlock env publicKey slot root = .ok (.fresh data)) :
    trees.Registered publicKey data ∧
      trees.blocks.get (blockKey publicKey slot) = none ∧ AllowsProposal data slot := by
  unfold checkBlock at checked
  cases read : trees.getValidatorData env publicKey with
  | error e => simp [read] at checked
  | ok found =>
    simp only [read] at checked
    split at checked
    · cases checked
    · cases record : trees.blocks.get (blockKey publicKey slot) with
      | some existing =>
        simp only [record] at checked
        split at checked
        · cases checked
        · split at checked <;> cases checked
      | none =>
        simp only [record, Bind.bind, Except.bind] at checked
        split at checked
        · cases checked
        · rename_i slotPassed
          cases checked
          refine ⟨getValidatorData_ok read, rfl, ?_⟩
          intro bound stored
          have low := requireMinimum_ok.mp slotPassed bound stored
          simpa using low

theorem checkBlock_of_allowed (healthy : env.Healthy) (registered : trees.Registered publicKey data)
    (absent : trees.blocks.get (blockKey publicKey slot) = none)
    (allowed : AllowsProposal data slot) :
    trees.checkBlock env publicKey slot root = .ok (.fresh data) := by
  have slotPassed : requireMinimum data.minSlot (fun bound => slot ≤ bound)
      (.slotTooLow slot) = .ok () :=
    requireMinimum_ok.mpr fun bound stored => by simpa using allowed bound stored
  have clear : env.io.getRecord = none := by simp [show env.io = {} from healthy]
  simp [checkBlock, getValidatorData_of_registered healthy registered, clear, absent, slotPassed,
    Bind.bind, Except.bind]

theorem checkBlock_repeated (checked : trees.checkBlock env publicKey slot root = .ok .repeated) :
    (∃ data, trees.Registered publicKey data) ∧
      ∃ existing, trees.blocks.get (blockKey publicKey slot) = some (.readable existing) ∧
        existing.signingRoot = root := by
  unfold checkBlock at checked
  cases read : trees.getValidatorData env publicKey with
  | error e => simp [read] at checked
  | ok found =>
    simp only [read] at checked
    split at checked
    · cases checked
    · cases record : trees.blocks.get (blockKey publicKey slot) with
      | none =>
        simp only [record, Bind.bind, Except.bind] at checked
        split at checked <;> cases checked
      | some stored =>
        cases stored with
        | unreadable text => simp [record, Stored.decode] at checked
        | readable existing =>
          simp only [record, Stored.decode] at checked
          split at checked
          · cases checked
          · rename_i same
            exact ⟨⟨found, getValidatorData_ok read⟩, existing, rfl, by simpa using same⟩

theorem checkBlock_of_recorded (healthy : env.Healthy)
    (registered : trees.Registered publicKey data) {existing : BlockData}
    (recorded : trees.blocks.get (blockKey publicKey slot) = some (.readable existing))
    (same : existing.signingRoot = root) :
    trees.checkBlock env publicKey slot root = .ok .repeated := by
  have clear : env.io.getRecord = none := by simp [show env.io = {} from healthy]
  simp [checkBlock, getValidatorData_of_registered healthy registered, clear, recorded,
    Stored.decode, same]

theorem registered_putValidator (trees : Trees) (data : ValidatorData) :
    (trees.putValidator data).Registered data.publicKey data := by
  simp [Registered, putValidator, ValidatorTable.put]

theorem registered_putValidator_of_ne (trees : Trees) (apart : data.publicKey ≠ publicKey)
    (other : ValidatorData) :
    (trees.putValidator data).Registered publicKey other ↔ trees.Registered publicKey other := by
  simp [Registered, putValidator, ValidatorTable.put, Tree.get_insert_of_ne _ _ apart]

@[simp] theorem putValidator_attestations (trees : Trees) (data : ValidatorData) :
    (trees.putValidator data).attestations = trees.attestations := rfl

@[simp] theorem putValidator_blocks (trees : Trees) (data : ValidatorData) :
    (trees.putValidator data).blocks = trees.blocks := rfl

@[simp] theorem putAttestation_validators (trees : Trees) (key : Bytes) (data : AttestationData) :
    (trees.putAttestation key data).validators = trees.validators := rfl

@[simp] theorem putAttestation_attestations (trees : Trees) (key : Bytes) (data : AttestationData) :
    (trees.putAttestation key data).attestations =
      trees.attestations.insert key (.readable data) := rfl

@[simp] theorem putAttestation_blocks (trees : Trees) (key : Bytes) (data : AttestationData) :
    (trees.putAttestation key data).blocks = trees.blocks := rfl

@[simp] theorem putBlock_validators (trees : Trees) (key : Bytes) (data : BlockData) :
    (trees.putBlock key data).validators = trees.validators := rfl

@[simp] theorem putBlock_attestations (trees : Trees) (key : Bytes) (data : BlockData) :
    (trees.putBlock key data).attestations = trees.attestations := rfl

@[simp] theorem putBlock_blocks (trees : Trees) (key : Bytes) (data : BlockData) :
    (trees.putBlock key data).blocks = trees.blocks.insert key (.readable data) := rfl

end Trees

/-- A failure leaves what was written in memory; success means all is on disk. -/
inductive Persisted (store : Durable Trees) (insert touch : Trees → Trees) :
    Durable Trees → Except SlashingError Unit → Prop where
  | notInserted (e : SlashingError) : Persisted store insert touch store (.error e)
  | notTouched (e : SlashingError) : Persisted store insert touch (store.write insert) (.error e)
  | notFlushed (e : SlashingError) :
      Persisted store insert touch ((store.write insert).write touch) (.error e)
  | flushed : Persisted store insert touch ((store.write insert).write touch).flush (.ok ())

namespace SlashingProtectionDb

variable (db : SlashingProtectionDb)

@[simp] theorem write_store (change : Trees → Trees) :
    (db.write change).store = db.store.write change := rfl

@[simp] theorem write_trees (change : Trees → Trees) :
    (db.write change).trees = change db.trees := rfl

theorem trees_of_store {first second : SlashingProtectionDb} (same : first.store = second.store) :
    first.trees = second.trees :=
  congrArg Durable.live same

theorem persistRecord_persisted (env : Env) (data : ValidatorData) (insert : Trees → Trees)
    (insertError : SlashingError) (record : String) (signed : SlashingStats → SlashingStats) :
    Persisted db.store insert (·.putValidator { data with updatedAt := env.now })
      (db.persistRecord env data insert insertError record signed).1.store
      (db.persistRecord env data insert insertError record signed).2 := by
  -- The three store operations may fail one after another, which leaves four ways out.
  cases inserted : env.io.insertRecord with
  | some e => simpa [persistRecord, inserted] using Persisted.notInserted insertError
  | none =>
    cases touched : env.io.insertValidator with
    | some e =>
      simpa [persistRecord, inserted, updateValidatorData, touched] using Persisted.notTouched _
    | none =>
      cases flushed : env.io.flush with
      | some e =>
        simpa [persistRecord, inserted, updateValidatorData, touched, flushed] using
          Persisted.notFlushed _
      | none =>
        simpa [persistRecord, inserted, updateValidatorData, touched, flushed] using
          Persisted.flushed

variable {env : Env}

theorem persistRecord_healthy (healthy : env.Healthy) (data : ValidatorData)
    (insert : Trees → Trees) (insertError : SlashingError) (record : String)
    (signed : SlashingStats → SlashingStats) :
    db.persistRecord env data insert insertError record signed =
      (⟨((db.store.write insert).write
          (·.putValidator { data with updatedAt := env.now })).flush, signed db.stats⟩, .ok ()) := by
  simp [persistRecord, updateValidatorData, show env.io = {} from healthy, write]

theorem checkAndRecordAttestation_cases (env : Env) (publicKey : Bytes) (source target : Epoch)
    (root : SigningRoot) :
    ((db.checkAndRecordAttestation env publicKey source target root).1.store = db.store ∧
      ∃ e, (db.checkAndRecordAttestation env publicKey source target root).2 = .error e) ∨
    ((db.checkAndRecordAttestation env publicKey source target root) = (db, .ok ()) ∧
      db.trees.checkAttestation env publicKey source target root = .ok .repeated) ∨
    ∃ data, db.trees.checkAttestation env publicKey source target root = .ok (.fresh data) ∧
      Persisted db.store
        (·.putAttestation (attestationKey publicKey target) ⟨source, target, root, env.now⟩)
        (·.putValidator { data with updatedAt := env.now })
        (db.checkAndRecordAttestation env publicKey source target root).1.store
        (db.checkAndRecordAttestation env publicKey source target root).2 := by
  unfold checkAndRecordAttestation
  cases checked : db.trees.checkAttestation env publicKey source target root with
  | error refusal => exact .inl ⟨rfl, refusal.error, rfl⟩
  | ok verdict =>
    cases verdict with
    | repeated => exact .inr (.inl ⟨rfl, rfl⟩)
    | fresh data => exact .inr (.inr ⟨data, rfl, persistRecord_persisted ..⟩)

theorem checkAndRecordBlock_cases (env : Env) (publicKey : Bytes) (slot : Slot) (root : SigningRoot)
    :
    ((db.checkAndRecordBlock env publicKey slot root).1.store = db.store ∧
      ∃ e, (db.checkAndRecordBlock env publicKey slot root).2 = .error e) ∨
    ((db.checkAndRecordBlock env publicKey slot root) = (db, .ok ()) ∧
      db.trees.checkBlock env publicKey slot root = .ok .repeated) ∨
    ∃ data, db.trees.checkBlock env publicKey slot root = .ok (.fresh data) ∧
      Persisted db.store (·.putBlock (blockKey publicKey slot) ⟨slot, root, env.now⟩)
        (·.putValidator { data with updatedAt := env.now })
        (db.checkAndRecordBlock env publicKey slot root).1.store
        (db.checkAndRecordBlock env publicKey slot root).2 := by
  unfold checkAndRecordBlock
  cases checked : db.trees.checkBlock env publicKey slot root with
  | error refusal => exact .inl ⟨rfl, refusal.error, rfl⟩
  | ok verdict =>
    cases verdict with
    | repeated => exact .inr (.inl ⟨rfl, rfl⟩)
    | fresh data => exact .inr (.inr ⟨data, rfl, persistRecord_persisted ..⟩)

theorem checkAndRecordAttestation_of_fresh (healthy : env.Healthy) {publicKey : Bytes}
    {source target : Epoch} {root : SigningRoot} {data : ValidatorData}
    (fresh : db.trees.checkAttestation env publicKey source target root = .ok (.fresh data)) :
    db.checkAndRecordAttestation env publicKey source target root =
      (⟨((db.store.write
          (·.putAttestation (attestationKey publicKey target) ⟨source, target, root, env.now⟩)).write
          (·.putValidator { data with updatedAt := env.now })).flush,
        { db.stats with attestationsSigned := db.stats.attestationsSigned + 1 }⟩, .ok ()) := by
  simp only [checkAndRecordAttestation, fresh, persistRecord_healthy db healthy]

theorem checkAndRecordBlock_of_fresh (healthy : env.Healthy) {publicKey : Bytes} {slot : Slot}
    {root : SigningRoot} {data : ValidatorData}
    (fresh : db.trees.checkBlock env publicKey slot root = .ok (.fresh data)) :
    db.checkAndRecordBlock env publicKey slot root =
      (⟨((db.store.write (·.putBlock (blockKey publicKey slot) ⟨slot, root, env.now⟩)).write
          (·.putValidator { data with updatedAt := env.now })).flush,
        { db.stats with blocksSigned := db.stats.blocksSigned + 1 }⟩, .ok ()) := by
  simp only [checkAndRecordBlock, fresh, persistRecord_healthy db healthy]

theorem registerValidator_cases (env : Env) (publicKey : Bytes) :
    ((db.registerValidator env publicKey).1 = db ∧
      ∃ e, (db.registerValidator env publicKey).2 = .error e) ∨
    ∃ data : ValidatorData, data.publicKey = publicKey ∧ data.minSourceEpoch = none ∧
      data.minTargetEpoch = none ∧ data.minSlot = none ∧
      db.trees.validators.tree.get publicKey = none ∧
      db.registerValidator env publicKey = (db.write (·.putValidator data), .ok ()) := by
  unfold registerValidator
  split
  · split
    · exact .inl ⟨rfl, _, rfl⟩
    · split
      · exact .inl ⟨rfl, _, rfl⟩
      · rename_i absent
        unfold updateValidatorData
        split
        · exact .inl ⟨rfl, _, rfl⟩
        · exact .inr ⟨_, rfl, rfl, rfl, rfl, by simpa using absent, rfl⟩
  · exact .inl ⟨rfl, _, rfl⟩

theorem updateMinimum_cases (env : Env) (publicKey : Bytes) (change : ValidatorData → ValidatorData)
    :
    ((db.updateMinimum env publicKey change).1 = db ∧
      ∃ e, (db.updateMinimum env publicKey change).2 = .error e) ∨
    ∃ data, db.trees.Registered publicKey data ∧
      db.updateMinimum env publicKey change =
        (db.write (·.putValidator { change data with updatedAt := env.now }), .ok ()) := by
  unfold updateMinimum
  cases read : db.trees.getValidatorData env publicKey with
  | error e => exact .inl ⟨rfl, e, rfl⟩
  | ok data =>
    simp only [updateValidatorData]
    split
    · exact .inl ⟨rfl, _, rfl⟩
    · exact .inr ⟨data, Trees.getValidatorData_ok read, rfl⟩

end SlashingProtectionDb

end Hsm
