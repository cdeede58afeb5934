import Hsm.Validator.Requests

/-! Minima as the guard over imported history: what raises them, what lowers them, what they refuse. -/

namespace Hsm

/-- The three minima of a validator. -/
inductive Bound where
  | sourceEpoch
  | targetEpoch
  | slot
  deriving DecidableEq

instance {holds : Bound → Prop} [DecidablePred holds] : Decidable (∀ bound, holds bound) :=
  decidable_of_iff (holds .sourceEpoch ∧ holds .targetEpoch ∧ holds .slot)
    ⟨fun ⟨source, target, slot⟩ bound => match bound with
      | .sourceEpoch => source
      | .targetEpoch => target
      | .slot => slot, fun all => ⟨all _, all _, all _⟩⟩

def ValidatorData.minimum (data : ValidatorData) : Bound → Option UInt64
  | .sourceEpoch => data.minSourceEpoch
  | .targetEpoch => data.minTargetEpoch
  | .slot => data.minSlot

def Trees.minimum (trees : Trees) (publicKey : Bytes) (bound : Bound) : Option UInt64 :=
  match trees.validators.tree.get publicKey with
  | some (.readable data) => data.minimum bound
  | _ => none

def Trees.Guards (trees : Trees) (publicKey : Bytes) (bound : Bound) (value : UInt64) : Prop :=
  ∃ minimum, trees.minimum publicKey bound = some minimum ∧ value ≤ minimum

/-- Where both are given, the first is not above. -/
def NotAbove (low high : Option UInt64) : Prop := ∀ l ∈ low, ∀ h ∈ high, l ≤ h

instance : (low high : Option UInt64) → Decidable (NotAbove low high)
  | some l, some h => decidable_of_iff (l ≤ h) (by simp [NotAbove])
  | none, _ => .isTrue (by simp [NotAbove])
  | some _, none => .isTrue (by simp [NotAbove])

namespace InterchangeData

variable (entry : InterchangeData)

def votes : List Vote :=
  entry.signedAttestations.filterMap (·.parse.toOption)

def proposals : List Proposal :=
  entry.signedBlocks.filterMap (·.parse.toOption)

def values : Bound → List UInt64
  | .sourceEpoch => entry.votes.map Vote.source
  | .targetEpoch => entry.votes.map Vote.target
  | .slot => entry.proposals.map Proposal.slot

/-- The largest value an entry lists. -/
def maximum (bound : Bound) : Option UInt64 :=
  (entry.values bound).foldl raise none

def Raises (trees : Trees) : Prop :=
  ∀ publicKey ∈ (parseHexPubkey entry.pubkey).toOption,
    ∀ bound, NotAbove (trees.minimum publicKey bound) (entry.maximum bound)

instance (trees : Trees) (entry : InterchangeData) : Decidable (entry.Raises trees) :=
  inferInstanceAs (Decidable (∀ publicKey ∈ (parseHexPubkey entry.pubkey).toOption, _))

/-- A later entry lists no smaller maximum. -/
def Precedes (earlier later : InterchangeData) : Prop :=
  parseHexPubkey earlier.pubkey = parseHexPubkey later.pubkey →
    ∀ bound, NotAbove (earlier.maximum bound) (later.maximum bound)

instance (earlier later : InterchangeData) : Decidable (earlier.Precedes later) :=
  inferInstanceAs (Decidable (_ → _))

end InterchangeData

/-- No validator recurs with a smaller maximum. -/
def Eip3076Interchange.Ordered (file : Eip3076Interchange) : Prop :=
  file.data.Pairwise InterchangeData.Precedes

instance (file : Eip3076Interchange) : Decidable file.Ordered :=
  inferInstanceAs (Decidable (file.data.Pairwise _))

def Operation.minima : Operation → Bound → Option UInt64
  | .setMinSourceEpoch epoch, .sourceEpoch => some epoch
  | .setMinTargetEpoch epoch, .targetEpoch => some epoch
  | .setMinSlot slot, .slot => some slot
  | _, _ => none

def KeepsMinima (db : SlashingProtectionDb) : Event → Prop
  | .request asked => ∀ bound,
      NotAbove (db.trees.minimum asked.publicKey bound) (asked.operation.minima bound)
  | .importFile file _ => file.Ordered ∧ ∀ entry ∈ file.data, entry.Raises db.trees

instance (db : SlashingProtectionDb) : (event : Event) → Decidable (KeepsMinima db event)
  | .request _ => inferInstanceAs (Decidable (∀ _, NotAbove _ _))
  | .importFile _ _ => inferInstanceAs (Decidable (_ ∧ _))

variable {value : UInt64}

theorem raise_covers {maximum : Option UInt64} {head : UInt64}
    (seen : value = head ∨ ∃ m, maximum = some m ∧ value ≤ m) :
    ∃ m, raise maximum head = some m ∧ value ≤ m := by
  cases maximum with
  | none => exact ⟨head, rfl, by grind⟩
  | some m =>
    have larger : max m head = if m ≤ head then head else m := rfl
    exact ⟨max m head, rfl, by grind⟩

theorem foldl_raise_covers (values : List UInt64) (start : Option UInt64)
    (seen : value ∈ values ∨ ∃ m, start = some m ∧ value ≤ m) :
    ∃ m, values.foldl raise start = some m ∧ value ≤ m := by
  induction values generalizing start with
  | nil => simpa using seen
  | cons head rest ih =>
    -- Either the value is still to come, or the maximum raised by the head covers it.
    refine ih (raise start head) ?_
    rcases seen with here | covered
    · rcases List.mem_cons.mp here with first | later
      · exact .inr (raise_covers (.inl first))
      · exact .inl later
    · exact .inr (raise_covers (.inr covered))

theorem InterchangeData.maximum_covers (entry : InterchangeData) (bound : Bound)
    (listed : value ∈ entry.values bound) : ∃ m, entry.maximum bound = some m ∧ value ≤ m :=
  foldl_raise_covers _ none (.inl listed)

namespace Trees

theorem minimum_of_registered {trees : Trees} {publicKey : Bytes} {data : ValidatorData}
    (registered : trees.Registered publicKey data) (bound : Bound) :
    trees.minimum publicKey bound = data.minimum bound := by
  unfold Registered at registered
  simp [minimum, registered]

theorem minimum_putValidator (trees : Trees) (data : ValidatorData) (publicKey : Bytes)
    (bound : Bound) :
    (trees.putValidator data).minimum publicKey bound =
      if data.publicKey = publicKey then data.minimum bound else trees.minimum publicKey bound := by
  by_cases same : data.publicKey = publicKey <;>
    simp [minimum, putValidator, ValidatorTable.put, Tree.get_insert, same]

end Trees

theorem Persisted.minimum_eq {store after : Durable Trees} {insert : Trees → Trees}
    {data : ValidatorData} {outcome : Except SlashingError Unit}
    (persisted : Persisted store insert (·.putValidator data) after outcome)
    (validators : (insert store.live).validators = store.live.validators)
    (kept : ∀ bound, data.minimum bound = store.live.minimum data.publicKey bound) :
    after.live.minimum = store.live.minimum := by
  have inserted : (insert store.live).minimum = store.live.minimum := by
    funext publicKey bound
    simp only [Trees.minimum, validators]
  have touched : ((insert store.live).putValidator data).minimum = store.live.minimum := by
    funext publicKey bound
    rw [Trees.minimum_putValidator]
    split
    · rename_i same
      rw [kept, same]
    · rw [inserted]
  cases persisted with
  | notInserted e => rfl
  | notTouched e => exact inserted
  | notFlushed e => exact touched
  | flushed => exact touched

namespace SlashingProtectionDb

variable (db : SlashingProtectionDb)

theorem checkAndRecordAttestation_minimum (env : Env) (publicKey : Bytes) (source target : Epoch)
    (root : SigningRoot) :
    (db.checkAndRecordAttestation env publicKey source target root).1.trees.minimum =
      db.trees.minimum := by
  rcases db.checkAndRecordAttestation_cases env publicKey source target root with
    ⟨same, -⟩ | ⟨same, -⟩ | ⟨data, fresh, persisted⟩
  · rw [trees_of_store same]
  · rw [same]
  · obtain ⟨registered, -⟩ := Trees.checkAttestation_fresh fresh
    refine persisted.minimum_eq rfl fun bound => ?_
    have owner : data.publicKey = publicKey := registered.publicKey_eq
    simp only [owner]
    exact (Trees.minimum_of_registered registered bound).symm

theorem checkAndRecordBlock_minimum (env : Env) (publicKey : Bytes) (slot : Slot)
    (root : SigningRoot) :
    (db.checkAndRecordBlock env publicKey slot root).1.trees.minimum = db.trees.minimum := by
  rcases db.checkAndRecordBlock_cases env publicKey slot root with
    ⟨same, -⟩ | ⟨same, -⟩ | ⟨data, fresh, persisted⟩
  · rw [trees_of_store same]
  · rw [same]
  · obtain ⟨registered, -⟩ := Trees.checkBlock_fresh fresh
    refine persisted.minimum_eq rfl fun bound => ?_
    have owner : data.publicKey = publicKey := registered.publicKey_eq
    simp only [owner]
    exact (Trees.minimum_of_registered registered bound).symm

theorem registerValidator_minimum (env : Env) (publicKey : Bytes) :
    (db.registerValidator env publicKey).1.trees.minimum = db.trees.minimum := by
  rcases db.registerValidator_cases env publicKey with
    ⟨same, -⟩ | ⟨data, rfl, source, target, slot, absent, made⟩
  · rw [same]
  · rw [made]
    funext owner bound
    rw [write_trees, Trees.minimum_putValidator]
    split
    · rename_i same
      subst same
      cases bound <;> simp [ValidatorData.minimum, Trees.minimum, source, target, slot, absent]
    · rfl

end SlashingProtectionDb

def Trees.Settles (before after : Trees) (publicKey : Bytes) (values : Bound → Option UInt64) :
    Prop :=
  ∀ owner bound, after.minimum owner bound = before.minimum owner bound ∨
    owner = publicKey ∧ (values bound).isSome ∧ after.minimum owner bound = values bound

namespace Trees.Settles

variable {first second third : Trees} {publicKey : Bytes} {values : Bound → Option UInt64}

theorem of_same (same : second.minimum = first.minimum) : first.Settles second publicKey values :=
  fun owner bound => .inl (by rw [same])

theorem trans (before : first.Settles second publicKey values)
    (after : second.Settles third publicKey values) : first.Settles third publicKey values := by
  intro owner bound
  rcases after owner bound with same | set
  · rw [same]
    exact before owner bound
  · exact .inr set

theorem guards (settles : first.Settles second publicKey values) {owner : Bytes} {bound : Bound}
    {value : UInt64} (guarded : first.Guards owner bound value)
    (keeps : owner = publicKey → NotAbove (some value) (values bound)) :
    second.Guards owner bound value := by
  rcases settles owner bound with same | ⟨rfl, given, set⟩
  · unfold Guards
    rw [same]
    exact guarded
  · obtain ⟨minimum, set'⟩ := Option.isSome_iff_exists.mp given
    exact ⟨minimum, set.trans set', keeps rfl value rfl minimum set'⟩

end Trees.Settles

namespace SlashingProtectionDb

variable (db : SlashingProtectionDb)

theorem updateMinimum_settles (env : Env) (publicKey : Bytes)
    (change : ValidatorData → ValidatorData) {bound : Bound} {value : UInt64}
    (owner : ∀ data, (change data).publicKey = data.publicKey)
    (sets : ∀ data other, (change data).minimum other =
      if other = bound then some value else data.minimum other) {values : Bound → Option UInt64}
    (given : values bound = some value) :
    db.trees.Settles (db.updateMinimum env publicKey change).1.trees publicKey values ∧
      ((db.updateMinimum env publicKey change).2 = .ok () →
        (db.updateMinimum env publicKey change).1.trees.minimum publicKey bound = some value) := by
  rcases db.updateMinimum_cases env publicKey change with
    ⟨same, e, refused⟩ | ⟨data, registered, made⟩
  · rw [same, refused]
    exact ⟨.of_same rfl, fun contra => nomatch contra⟩
  · have key : (change data).publicKey = publicKey := (owner data).trans registered.publicKey_eq
    have after : ∀ other, (db.updateMinimum env publicKey change).1.trees.minimum publicKey other =
        if other = bound then some value else data.minimum other := by
      intro other
      rw [made, write_trees, Trees.minimum_putValidator, if_pos key]
      exact sets data other
    refine ⟨fun other kind => ?_, fun _ => by rw [after, if_pos rfl]⟩
    by_cases same : other = publicKey
    · subst same
      rw [after, Trees.minimum_of_registered registered]
      by_cases here : kind = bound <;> simp [here, given]
    · left
      rw [made, write_trees, Trees.minimum_putValidator, if_neg]
      rw [key]
      exact fun contra => same contra.symm

def setMinimum (env : Env) (publicKey : Bytes) :
    Bound → UInt64 → SlashingProtectionDb × Except ValidatorError Unit
  | .sourceEpoch => db.setMinSourceEpoch env publicKey
  | .targetEpoch => db.setMinTargetEpoch env publicKey
  | .slot => db.setMinSlot env publicKey

theorem setMinimum_settles (env : Env) (publicKey : Bytes) (bound : Bound) (value : UInt64)
    (values : Bound → Option UInt64) (given : values bound = some value) :
    db.trees.Settles (db.setMinimum env publicKey bound value).1.trees publicKey values ∧
      ((db.setMinimum env publicKey bound value).2 = .ok () →
        (db.setMinimum env publicKey bound value).1.trees.minimum publicKey bound = some value) := by
  cases bound with
  | sourceEpoch =>
    exact updateMinimum_settles db env publicKey (fun data => { data with minSourceEpoch := some value })
      (fun _ => rfl) (fun _ other => by cases other <;> rfl) given
  | targetEpoch =>
    exact updateMinimum_settles db env publicKey (fun data => { data with minTargetEpoch := some value })
      (fun _ => rfl) (fun _ other => by cases other <;> rfl) given
  | slot =>
    exact updateMinimum_settles db env publicKey (fun data => { data with minSlot := some value })
      (fun _ => rfl) (fun _ other => by cases other <;> rfl) given

end SlashingProtectionDb

theorem importRegistration_minimum (envs : Nat → Env) (publicKey : Bytes) (state : ImportState) :
    (importRegistration envs publicKey state).1.db.trees.minimum = state.db.trees.minimum := by
  have registered :=
    state.db.registerValidator_minimum (envs (state.calls + 1)) publicKey
  unfold importRegistration
  split
  · rfl
  · rfl
  · split
    · rename_i made
      rw [made] at registered
      exact registered
    · rename_i made
      rw [made] at registered
      exact registered

theorem importAttestations_minimum (envs : Nat → Env) (publicKey : Bytes)
    (maxima : Option Epoch × Option Epoch) (state : ImportState)
    (attestations : List SignedAttestation) :
    (importAttestations envs publicKey maxima state attestations).1.db.trees.minimum =
      state.db.trees.minimum := by
  induction attestations generalizing maxima state with
  | nil => rfl
  | cons attestation rest ih =>
    simp only [importAttestations, importAttestation]
    cases attestation.parse with
    | error e => rfl
    | ok vote =>
      simp only [ih]
      exact state.db.checkAndRecordAttestation_minimum ..

variable {publicKey : Bytes}

theorem importAttestations_ok {envs : Nat → Env} {maxima largest : Option Epoch × Option Epoch}
    {state : ImportState} {attestations : List SignedAttestation}
    (imported : (importAttestations envs publicKey maxima state attestations).2 = .ok largest) :
    largest =
      (((attestations.filterMap (·.parse.toOption)).map Vote.source).foldl raise maxima.1,
        ((attestations.filterMap (·.parse.toOption)).map Vote.target).foldl raise maxima.2) := by
  induction attestations generalizing maxima state with
  | nil => simpa [importAttestations] using imported.symm
  | cons attestation rest ih =>
    simp only [importAttestations, importAttestation] at imported
    cases parsed : attestation.parse with
    | error e => simp [parsed] at imported
    | ok vote =>
      simp only [parsed] at imported
      simpa [parsed, Except.toOption] using ih imported

theorem importBlocks_minimum (envs : Nat → Env) (publicKey : Bytes) (maxSlot : Option Slot)
    (state : ImportState) (blocks : List SignedBlock) :
    (importBlocks envs publicKey maxSlot state blocks).1.db.trees.minimum =
      state.db.trees.minimum := by
  induction blocks generalizing maxSlot state with
  | nil => rfl
  | cons block rest ih =>
    simp only [importBlocks, importBlock]
    cases block.parse with
    | error e => rfl
    | ok proposal =>
      simp only [ih]
      exact state.db.checkAndRecordBlock_minimum ..

theorem importBlocks_ok {envs : Nat → Env} {maxSlot largest : Option Slot} {state : ImportState}
    {blocks : List SignedBlock}
    (imported : (importBlocks envs publicKey maxSlot state blocks).2 = .ok largest) :
    largest =
      ((blocks.filterMap (·.parse.toOption)).map Proposal.slot).foldl raise maxSlot := by
  induction blocks generalizing maxSlot state with
  | nil => simpa [importBlocks] using imported.symm
  | cons block rest ih =>
    simp only [importBlocks, importBlock] at imported
    cases parsed : block.parse with
    | error e => simp [parsed] at imported
    | ok proposal =>
      simp only [parsed] at imported
      simpa [parsed, Except.toOption] using ih imported

def ImportState.SettledBy {α : Type} (before : ImportState) (publicKey : Bytes)
    (values : Bound → Option UInt64) (done : List Bound)
    (stage : ImportState × Except ValidatorError α) : Prop :=
  before.db.trees.Settles stage.1.db.trees publicKey values ∧
    ∀ result, stage.2 = .ok result → ∀ bound ∈ done, (values bound).isSome →
      stage.1.db.trees.minimum publicKey bound = values bound

theorem andThen_settledBy {α β : Type} {before : ImportState} {values : Bound → Option UInt64}
    {early : List Bound} (late : List Bound) {stage : ImportState × Except ValidatorError α}
    {next : ImportState → α → ImportState × Except ValidatorError β}
    (first : before.SettledBy publicKey values early stage)
    (second : ∀ result, stage.2 = .ok result →
      stage.1.SettledBy publicKey values late (next stage.1 result)) :
    before.SettledBy publicKey values (early ++ late) (ImportState.andThen stage next) := by
  obtain ⟨state, outcome⟩ := stage
  cases outcome with
  | error e => exact ⟨first.1, fun _ contra => nomatch contra⟩
  | ok value =>
    have then' := second value rfl
    refine ⟨first.1.trans then'.1, fun result done bound member given => ?_⟩
    rcases List.mem_append.mp member with inEarly | inLate
    · -- What the first stage set, the second leaves alone or sets to the same value.
      rcases then'.1 publicKey bound with same | ⟨-, -, again⟩
      · exact same.trans (first.2 value rfl bound inEarly given)
      · exact again
    · exact then'.2 result done bound inLate given

theorem importMinimum_settledBy (envs : Nat → Env) (publicKey : Bytes) (bound : Bound)
    (values : Bound → Option UInt64) (state : ImportState) :
    state.SettledBy publicKey values [bound]
      (importMinimum envs (·.setMinimum · publicKey bound) (values bound) state) := by
  unfold importMinimum
  cases given : values bound with
  | none => exact ⟨.of_same rfl, by simp [given]⟩
  | some value =>
    obtain ⟨settles, done⟩ :=
      state.db.setMinimum_settles (envs state.calls) publicKey bound value values given
    refine ⟨settles, ?_⟩
    rintro ⟨⟩ succeeded kind member -
    rw [List.mem_singleton.mp member, given]
    exact done succeeded

theorem importValidator_settledBy (envs : Nat → Env) (state : ImportState) (entry : InterchangeData)
    (parsed : parseHexPubkey entry.pubkey = .ok publicKey) :
    state.SettledBy publicKey entry.maximum [.sourceEpoch, .targetEpoch, .slot]
      (importValidator envs state entry) := by
  have still : ∀ {α : Type} {before : ImportState} {stage : ImportState × Except ValidatorError α},
      stage.1.db.trees.minimum = before.db.trees.minimum →
      before.SettledBy publicKey entry.maximum [] stage :=
    fun same => ⟨.of_same same, by simp⟩
  simp only [importValidator, parsed]
  refine andThen_settledBy _ (still (importRegistration_minimum ..)) fun _ _ => ?_
  refine andThen_settledBy _ (still (importAttestations_minimum ..)) fun maxima imported => ?_
  -- The loop's running maxima are the maxima the entry lists.
  obtain rfl := importAttestations_ok imported
  refine andThen_settledBy [.targetEpoch, .slot]
    (importMinimum_settledBy envs publicKey .sourceEpoch ..) fun _ _ => ?_
  refine andThen_settledBy [.slot]
    (importMinimum_settledBy envs publicKey .targetEpoch ..) fun _ _ => ?_
  refine andThen_settledBy _ (still (importBlocks_minimum ..)) fun maxSlot imported => ?_
  obtain rfl := importBlocks_ok imported
  exact importMinimum_settledBy envs publicKey .slot ..

theorem andThen_ok {α β : Type} {stage : ImportState × Except ValidatorError α}
    {next : ImportState → α → ImportState × Except ValidatorError β} {result : β}
    (succeeded : (ImportState.andThen stage next).2 = .ok result) :
    ∃ value, stage.2 = .ok value ∧ ImportState.andThen stage next = next stage.1 value := by
  obtain ⟨state, outcome⟩ := stage
  cases outcome with
  | error e => cases succeeded
  | ok value => exact ⟨value, rfl, rfl⟩

variable {bound : Bound} {value : UInt64}

theorem importValidator_guards (envs : Nat → Env) (state : ImportState) (entry : InterchangeData)
    (guarded : state.db.trees.Guards publicKey bound value)
    (keeps : parseHexPubkey entry.pubkey = .ok publicKey →
      NotAbove (some value) (entry.maximum bound)) :
    (importValidator envs state entry).1.db.trees.Guards publicKey bound value := by
  cases parsed : parseHexPubkey entry.pubkey with
  | error e => simpa [importValidator, parsed] using guarded
  | ok owner =>
    have settled := importValidator_settledBy envs state entry parsed
    refine settled.1.guards guarded fun same => keeps ?_
    rw [parsed, same]

theorem importValidators_guards (envs : Nat → Env) (state : ImportState)
    (data : List InterchangeData) (guarded : state.db.trees.Guards publicKey bound value)
    (keeps : ∀ entry ∈ data, parseHexPubkey entry.pubkey = .ok publicKey →
      NotAbove (some value) (entry.maximum bound)) :
    (importValidators envs state data).1.db.trees.Guards publicKey bound value := by
  induction data generalizing state with
  | nil => exact guarded
  | cons entry rest ih =>
    have first := importValidator_guards envs state entry guarded (keeps entry (by simp))
    rw [importValidators]
    cases made : importValidator envs state entry with
    | mk next outcome =>
      rw [made] at first
      cases outcome with
      | error e => exact first
      | ok done => exact ih next first fun other member => keeps other (by simp [member])

theorem importValidators_guards_listed (envs : Nat → Env) (state : ImportState)
    (data : List InterchangeData) (ordered : data.Pairwise InterchangeData.Precedes)
    (imported : (importValidators envs state data).2 = .ok ()) {entry : InterchangeData}
    (listed : entry ∈ data) (parsed : parseHexPubkey entry.pubkey = .ok publicKey)
    (member : value ∈ entry.values bound) :
    (importValidators envs state data).1.db.trees.Guards publicKey bound value := by
  induction data generalizing state with
  | nil => cases listed
  | cons head rest ih =>
    rw [importValidators] at imported ⊢
    obtain ⟨⟨⟩, done, continues⟩ := andThen_ok imported
    rw [continues] at imported ⊢
    rcases List.mem_cons.mp listed with rfl | later
    · -- The entry's own minima are set here, and later entries of its key list no less.
      obtain ⟨m, largest, below⟩ := entry.maximum_covers bound member
      have settled := importValidator_settledBy envs state entry parsed
      have set := settled.2 () done bound (by cases bound <;> simp) (by simp [largest])
      refine importValidators_guards envs _ rest ⟨m, set.trans largest, below⟩ ?_
      intro other inRest same l isValue h isMaximum
      have precedes := (List.pairwise_cons.mp ordered).1 other inRest (parsed.trans same.symm)
      cases isValue
      exact UInt64.le_trans below (precedes bound m largest h isMaximum)
    · exact ih _ (List.pairwise_cons.mp ordered).2 imported later

namespace SlashingProtectionDb

theorem serve_settles (db : SlashingProtectionDb) (request : Request) :
    db.trees.Settles (db.serve request).1.trees request.publicKey request.operation.minima := by
  obtain ⟨publicKey, operation, env⟩ := request
  cases operation with
  | isRegistered | getValidatorSummary | getAttestationRecords | getBlockRecords =>
    exact .of_same rfl
  | registerValidator => exact .of_same (db.registerValidator_minimum env publicKey)
  | checkAndRecordAttestation vote =>
    exact .of_same (db.checkAndRecordAttestation_minimum env publicKey ..)
  | checkAndRecordBlock proposal =>
    exact .of_same (db.checkAndRecordBlock_minimum env publicKey ..)
  | setMinSourceEpoch epoch =>
    exact (db.setMinimum_settles env publicKey .sourceEpoch epoch _ rfl).1
  | setMinTargetEpoch epoch =>
    exact (db.setMinimum_settles env publicKey .targetEpoch epoch _ rfl).1
  | setMinSlot slot => exact (db.setMinimum_settles env publicKey .slot slot _ rfl).1

theorem step_guards (db : SlashingProtectionDb) (event : Event) (keeps : KeepsMinima db event)
    {publicKey : Bytes} {bound : Bound} {value : UInt64}
    (guarded : db.trees.Guards publicKey bound value) :
    (db.step event).1.trees.Guards publicKey bound value := by
  obtain ⟨minimum, stored, below⟩ := guarded
  -- What is not below the stored minimum is not below the guarded value either.
  have raised : ∀ {values : Option UInt64}, NotAbove (db.trees.minimum publicKey bound) values →
      NotAbove (some value) values := by
    rintro values notAbove l ⟨⟩ h isValue
    exact UInt64.le_trans below (notAbove minimum stored h isValue)
  cases event with
  | request asked =>
    refine (db.serve_settles asked).guards ⟨minimum, stored, below⟩ fun same => raised ?_
    rw [same]
    exact keeps bound
  | importFile file envs =>
    refine importValidators_guards envs { db } file.data ⟨minimum, stored, below⟩
      fun entry listed parsed => raised ?_
    exact keeps.2 entry listed publicKey (by simp [parsed, Except.toOption]) bound

end SlashingProtectionDb

/-- Two votes that may not both be signed. -/
def Vote.Slashable (first second : Vote) : Prop :=
  (first.target = second.target ∧ first.root ≠ second.root) ∨
    Surrounds first.source first.target second.source second.target ∨
    Surrounds second.source second.target first.source first.target

instance (first second : Vote) : Decidable (first.Slashable second) :=
  inferInstanceAs (Decidable (_ ∨ _))

namespace Trees

def RecordsVote (trees : Trees) (publicKey : Bytes) (vote : Vote) : Prop :=
  ∃ data, trees.attestations.get (attestationKey publicKey vote.target) = some (.readable data) ∧
    data.vote = vote

def RootBinds (trees : Trees) (publicKey : Bytes) (vote : Vote) : Prop :=
  ∀ data, trees.attestations.get (attestationKey publicKey vote.target) = some (.readable data) →
    data.signingRoot = vote.root →
    data.sourceEpoch = vote.source ∧ data.targetEpoch = vote.target

def RecordsProposal (trees : Trees) (publicKey : Bytes) (proposal : Proposal) : Prop :=
  ∃ data, trees.blocks.get (blockKey publicKey proposal.slot) = some (.readable data) ∧
    data.signingRoot = proposal.root

end Trees

namespace SlashingProtectionDb

/-- Minima at a vote's epochs refuse what is slashable with it. -/
theorem refuses_slashable (db : SlashingProtectionDb) {publicKey : Bytes} {vote : Vote}
    (source : db.trees.Guards publicKey .sourceEpoch vote.source)
    (target : db.trees.Guards publicKey .targetEpoch vote.target) (env : Env) {asked : Vote}
    (unrecorded : ¬ db.trees.RecordsVote publicKey asked)
    (binds : db.trees.RootBinds publicKey asked) (slashable : asked.Slashable vote) :
    ∃ e, (db.checkAndRecordAttestation env publicKey asked.source asked.target asked.root).2 =
      .error e := by
  rcases db.checkAndRecordAttestation_cases env publicKey asked.source asked.target asked.root with
    ⟨-, refused⟩ | ⟨-, repeated⟩ | ⟨data, fresh, -⟩
  · exact refused
  · -- A repeat finds the root recorded, and the root binds the epochs.
    obtain ⟨-, existing, found, root⟩ := Trees.checkAttestation_repeated repeated
    obtain ⟨sameSource, sameTarget⟩ := binds existing found root
    have recorded : existing.vote = asked := by
      simp [AttestationData.vote, sameSource, sameTarget, root]
    exact absurd ⟨existing, found, recorded⟩ unrecorded
  · -- A new vote has passed both minima, and no slashable vote does.
    obtain ⟨registered, -, ⟨sources, targets⟩, -⟩ := Trees.checkAttestation_fresh fresh
    obtain ⟨minSource, storedSource, belowSource⟩ := source
    obtain ⟨minTarget, storedTarget, belowTarget⟩ := target
    rw [Trees.minimum_of_registered registered] at storedSource storedTarget
    have passedSource := sources minSource storedSource
    have passedTarget := targets minTarget storedTarget
    rcases slashable with ⟨same, -⟩ | ⟨earlier, -⟩ | ⟨-, before⟩
    · grind
    · grind
    · grind

theorem refuses_slot (db : SlashingProtectionDb) {publicKey : Bytes} {slot : Slot}
    (guarded : db.trees.Guards publicKey .slot slot) (env : Env) {root : SigningRoot}
    (unrecorded : ¬ db.trees.RecordsProposal publicKey ⟨slot, root⟩) :
    ∃ e, (db.checkAndRecordBlock env publicKey slot root).2 = .error e := by
  rcases db.checkAndRecordBlock_cases env publicKey slot root with
    ⟨-, refused⟩ | ⟨-, repeated⟩ | ⟨data, fresh, -⟩
  · exact refused
  · obtain ⟨-, existing, found, root⟩ := Trees.checkBlock_repeated repeated
    exact absurd ⟨existing, found, root⟩ unrecorded
  · obtain ⟨registered, -, allowed⟩ := Trees.checkBlock_fresh fresh
    obtain ⟨minimum, stored, below⟩ := guarded
    rw [Trees.minimum_of_registered registered] at stored
    have passed := allowed minimum stored
    grind

/-- Imported history stays protected as long as no later event lowers a minimum. -/
theorem imported_history_refused (db : SlashingProtectionDb) (file : Eip3076Interchange)
    (envs : Nat → Env) (result : ImportResult) (imported : (file.import envs db).2 = .ok result)
    (ordered : file.Ordered) (later : List Event)
    (keeps : Along KeepsMinima step (file.import envs db).1 later) (entry : InterchangeData)
    (listed : entry ∈ file.data) (publicKey : Bytes)
    (parsed : parseHexPubkey entry.pubkey = .ok publicKey) :
    (∀ vote ∈ entry.votes, ∀ env asked,
      ¬ (trace step (file.import envs db).1 later).1.trees.RecordsVote publicKey asked →
      (trace step (file.import envs db).1 later).1.trees.RootBinds publicKey asked →
      asked.Slashable vote →
      ∃ e, ((trace step (file.import envs db).1 later).1.checkAndRecordAttestation env publicKey
        asked.source asked.target asked.root).2 = .error e) ∧
    ∀ proposal ∈ entry.proposals, ∀ env root,
      ¬ (trace step (file.import envs db).1 later).1.trees.RecordsProposal publicKey
        ⟨proposal.slot, root⟩ →
      ∃ e, ((trace step (file.import envs db).1 later).1.checkAndRecordBlock env publicKey
        proposal.slot root).2 = .error e := by
  -- The import guards every listed value, and every later event keeps the guards.
  have succeeded : (importValidators envs { db } file.data).2 = .ok () := by
    cases outcome : (importValidators envs { db } file.data).2 with
    | error e => simp [Eip3076Interchange.import, Eip3076Interchange.importRun, outcome,
        Except.map] at imported
    | ok done => rfl
  have guarded : ∀ {bound value}, value ∈ entry.values bound →
      (trace step (file.import envs db).1 later).1.trees.Guards publicKey bound value := by
    intro bound value member
    exact trace_invariant (fun db _ => db.trees.Guards publicKey bound value)
      (fun db _ event holds kept => db.step_guards event kept holds) later _ []
      (importValidators_guards_listed envs { db } file.data ordered succeeded listed parsed member)
      keeps
  constructor
  · intro vote member env asked unrecorded binds slashable
    exact refuses_slashable _ (guarded (List.mem_map_of_mem member))
      (guarded (List.mem_map_of_mem member)) env unrecorded binds slashable
  · intro proposal member env root unrecorded
    exact refuses_slot _ (guarded (List.mem_map_of_mem member)) env unrecorded

end SlashingProtectionDb

open SlashingProtectionDb

def Sample.voted : SlashingProtectionDb :=
  (run [asks .registerValidator, votes 5 20 1]).1

theorem lowered_minima_grant_double_vote :
    ((Sample.voteFile 10 15 2).import (fun _ => Sample.env) Sample.voted).2 =
        .ok { attestationsSkipped := 1 } ∧
      (∃ entry ∈ (Sample.voteFile 10 15 2).data,
        parseHexPubkey entry.pubkey = .ok Sample.key ∧ ⟨10, 15, .filled 2⟩ ∈ entry.votes) ∧
      (trace step ((Sample.voteFile 10 15 2).import (fun _ => Sample.env) Sample.voted).1
        [Sample.importsVote 1 2 3]).1.trees.attestations.get (attestationKey Sample.key 15) = none ∧
      Vote.Slashable ⟨5, 15, .filled 4⟩ ⟨10, 15, .filled 2⟩ ∧
      ((trace step ((Sample.voteFile 10 15 2).import (fun _ => Sample.env) Sample.voted).1
        [Sample.importsVote 1 2 3]).1.checkAndRecordAttestation Sample.env Sample.key
          5 15 (.filled 4)).2 = .ok () := by
  decide +kernel

theorem imported_history_refused_raised :
    ∃ e, ((trace step ((Sample.voteFile 10 15 2).import (fun _ => Sample.env) Sample.voted).1
      [Sample.importsVote 12 22 3]).1.checkAndRecordAttestation Sample.env Sample.key
        5 15 (.filled 4)).2 = .error e := by
  obtain ⟨imported, keeps, unrecorded⟩ :
      ((Sample.voteFile 10 15 2).import (fun _ => Sample.env) Sample.voted).2 =
          .ok { attestationsSkipped := 1 } ∧
        Along KeepsMinima step ((Sample.voteFile 10 15 2).import (fun _ => Sample.env)
          Sample.voted).1 [Sample.importsVote 12 22 3] ∧
        (trace step ((Sample.voteFile 10 15 2).import (fun _ => Sample.env) Sample.voted).1
          [Sample.importsVote 12 22 3]).1.trees.attestations.get
            (attestationKey Sample.key 15) = none := by
    decide +kernel
  have refused := imported_history_refused Sample.voted (Sample.voteFile 10 15 2)
    (fun _ => Sample.env) _ imported (List.pairwise_singleton _ _) _ keeps _
    (List.mem_singleton_self _) Sample.key (by decide +kernel)
  refine refused.1 ⟨10, 15, .filled 2⟩ (by decide +kernel) Sample.env ⟨5, 15, .filled 4⟩ ?_ ?_
    (by decide)
  · rintro ⟨data, found, -⟩
    rw [unrecorded] at found
    cases found
  · intro data found
    rw [unrecorded] at found
    cases found

end Hsm
