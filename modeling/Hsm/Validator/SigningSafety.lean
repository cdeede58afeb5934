import Hsm.Validator.Ethereum
import Hsm.Validator.VoteSafety
import Mathlib.Data.Vector.Basic

/-! Whatever validators are asked to sign, no key signs slashable attestations. -/

namespace Hsm.Ethereum

theorem toLeBytes_injective : Function.Injective toLeBytes := by
  intro first second same
  have values := congrArg leValue same
  have small : ∀ value : UInt64, value.toNat < 256 ^ 8 := fun value => value.toNat_lt
  rw [toLeBytes, toLeBytes, leValue_leBytes, leValue_leBytes, Nat.mod_eq_of_lt (small _),
    Nat.mod_eq_of_lt (small _)] at values
  exact UInt64.toNat.inj values

theorem DomainType.toBytes_injective : Function.Injective DomainType.toBytes := by
  intro first second same
  cases first <;> cases second <;> first | rfl | cases same

theorem AttestationData.eq_of_flatten {first second : AttestationData}
    (same : first.fields.flatten = second.fields.flatten) : first = second := by
  have fields := List.eq_iff_flatten_eq.mpr ⟨same, by simp [fields, toLeBytes]⟩
  obtain ⟨_, _, _, ⟨_, _⟩, ⟨_, _⟩⟩ := first
  simp [AttestationData.fields, toLeBytes_injective.eq_iff,
    List.Vector.toList_injective.eq_iff] at fields
  simp [fields]

theorem BeaconBlockHeader.eq_of_flatten {first second : BeaconBlockHeader}
    (same : first.fields.flatten = second.fields.flatten) : first = second := by
  have fields := List.eq_iff_flatten_eq.mpr ⟨same, by simp [fields, toLeBytes]⟩
  cases first
  simp [BeaconBlockHeader.fields, toLeBytes_injective.eq_iff,
    List.Vector.toList_injective.eq_iff] at fields
  simp [fields]

theorem SigningRequest.dataRoot_length (request : SigningRequest) :
    request.dataRoot.length = 32 := by
  cases request <;> simp [dataRoot]

/-- The message of a request that the database checks. -/
def SigningRequest.checked : SigningRequest → Option Bytes
  | .attestation data => some data.fields.flatten
  | .block header => some header.fields.flatten
  | _ => none

variable {κ : Type} {validator other : EthereumValidator κ} {request asked : SigningRequest}

/-- What is hashed for a request, as far as that tells it from others. -/
def hashed (validator : EthereumValidator κ) (request : SigningRequest) : List Bytes :=
  validator.signingInput request :: request.checked.toList

def CollisionFree (messages : List Bytes) : Prop :=
  ∀ first ∈ messages, ∀ second ∈ messages, sha256 first = sha256 second → first = second

instance (messages : List Bytes) : Decidable (CollisionFree messages) :=
  inferInstanceAs (Decidable (∀ first ∈ messages, ∀ second ∈ messages, _ → _))

/-- Nothing else has the root of a request that the database checks. -/
theorem request_of_signingRoot {messages : List Bytes} (free : CollisionFree messages)
    (within : hashed validator request ⊆ messages) (otherWithin : hashed other asked ⊆ messages)
    (same : other.signingRoot asked = validator.signingRoot request)
    (checked : request.checked ≠ none) : asked = request := by
  have inputs := free _ (otherWithin List.mem_cons_self) _ (within List.mem_cons_self)
    (congrArg SigningRoot.bytes same)
  obtain ⟨roots, domains⟩ := List.append_inj inputs
    (asked.dataRoot_length.trans request.dataRoot_length.symm)
  -- A domain starts with its type, so both requests are of the same kind.
  have types : asked.domainType = request.domainType :=
    DomainType.toBytes_injective (List.append_inj domains (by simp [DomainType.toBytes])).1
  have apart : ∀ message message', asked.checked = some message →
      request.checked = some message' → sha256 message = sha256 message' → message = message' := by
    intro message message' isFirst isSecond
    exact free _ (otherWithin (by simp [hashed, isFirst])) _ (within (by simp [hashed, isSecond]))
  cases request with
  | attestation data =>
    cases asked with
    | attestation data' => rw [AttestationData.eq_of_flatten (apart _ _ rfl rfl roots)]
    | _ => cases types
  | block header =>
    cases asked with
    | block header' => rw [BeaconBlockHeader.eq_of_flatten (apart _ _ rfl rfl roots)]
    | _ => cases types
  | _ => exact absurd rfl checked

/-- Duties of validators, between other uses of their database. -/
inductive ServiceEvent (κ : Type) where
  | database (event : Event)
  | duty (validator : EthereumValidator κ) (request : SigningRequest) (env : Env)

def ServiceEvent.Healthy : ServiceEvent κ → Prop
  | .database event => event.Healthy
  | .duty _ _ env => env.Healthy

def ServiceEvent.hashed : ServiceEvent κ → List Bytes
  | .database _ => []
  | .duty validator request _ => Ethereum.hashed validator request

abbrev Signing (κ : Type) := EthereumValidator κ × SigningRequest

/-- A step, reporting what was signed. -/
def serve (sign : κ → Bytes → Bytes → Bytes) (db : SlashingProtectionDb) :
    ServiceEvent κ → SlashingProtectionDb × List (Signing κ)
  | .database event => ((db.step event).1, [])
  | .duty validator request env =>
    let outcome := validator.perform sign db env request
    (outcome.1, if outcome.2.isOk then [(validator, request)] else [])

/-- A key has signed a root, for whatever request. -/
def Signed (signed : List (Signing κ)) (publicKey : BlsPublicKey) (root : SigningRoot) : Prop :=
  ∃ made ∈ signed, made.1.publicKey = publicKey ∧ made.1.signingRoot made.2 = root

variable {sign : κ → Bytes → Bytes → Bytes} {events : List (ServiceEvent κ)}
  {db : SlashingProtectionDb} {event : ServiceEvent κ} {signed : List (Signing κ)}

theorem isOk_of_map {outcome : Except SlashingError Unit} {made signature : Bytes}
    (mapped : outcome.map (fun _ => made) = .ok signature) : outcome = .ok () := by
  cases outcome <;> cases mapped
  rfl

theorem mem_serve {made : Signing κ} (isMade : made ∈ (serve sign db event).2) :
    ∃ env signature, event = .duty made.1 made.2 env ∧
      (made.1.perform sign db env made.2).2 = .ok signature := by
  cases event with
  | database event => cases isMade
  | duty validator request env =>
    simp only [serve] at isMade
    split at isMade
    · rename_i succeeded
      rw [List.mem_singleton.mp isMade]
      cases outcome : (validator.perform sign db env request).2 with
      | error e => simp [outcome, Except.isOk, Except.toBool] at succeeded
      | ok signature => exact ⟨env, signature, rfl, outcome⟩
    · cases isMade

theorem duty_of_mem (sign : κ → Bytes → Bytes → Bytes) (events : List (ServiceEvent κ)) :
    ∀ made ∈ (trace (serve sign) .new events).2, ∃ env, .duty made.1 made.2 env ∈ events := by
  have along : Along (fun _ _ => True) (serve sign) .new events :=
    Along.of_forall (fun _ _ _ => trivial) _
  refine trace_outputs (fun _ => True) _ ?_ _ trivial along
  intro state event member _ _
  refine ⟨trivial, fun made isMade => ?_⟩
  obtain ⟨env, -, rfl, -⟩ := mem_serve isMade
  exact ⟨env, member⟩

/-- A checked root that was signed was signed for its own request. -/
theorem Signed.made
    (signed : Signed (trace (serve sign) .new events).2 validator.publicKey
      (validator.signingRoot request))
    (checked : request.checked ≠ none) {messages : List Bytes} (free : CollisionFree messages)
    (within : hashed validator request ⊆ messages)
    (covered : events.flatMap ServiceEvent.hashed ⊆ messages) :
    ∃ signer, (signer, request) ∈ (trace (serve sign) .new events).2 ∧
      signer.publicKey = validator.publicKey ∧
      signer.signingRoot request = validator.signingRoot request := by
  obtain ⟨⟨signer, asked⟩, made, key, root⟩ := signed
  obtain ⟨env, isDuty⟩ := duty_of_mem _ _ _ made
  have same := request_of_signingRoot free within
    (fun message member => covered (List.mem_flatMap.mpr ⟨_, isDuty, member⟩)) root checked
  subst same
  exact ⟨signer, made, key, root⟩

/-- A vote has the epochs of the attestation that its root stands for. -/
def Genuine (events : List (ServiceEvent κ)) (call : VoteCall) : Prop :=
  ∀ validator data env, .duty validator (.attestation data) env ∈ events →
    validator.publicKey.bytes = call.publicKey →
    validator.signingRoot (.attestation data) = call.vote.root →
    data.source.epoch = call.vote.source ∧ data.target.epoch = call.vote.target

/-- The attestations signed so far are granted votes, and all votes are genuine. -/
def Accounted (events : List (ServiceEvent κ)) (db : SlashingProtectionDb)
    (signed : List (Signing κ)) : Prop :=
  ∃ calls, VoteLedger db calls ∧ (∀ call ∈ calls, Genuine events call) ∧
    ∀ validator data, (validator, .attestation data) ∈ signed →
      Granted calls validator.publicKey.bytes
        ⟨data.source.epoch, data.target.epoch, validator.signingRoot (.attestation data)⟩

theorem accounted_serve (free : CollisionFree (events.flatMap ServiceEvent.hashed))
    (genuine : ∀ event, .database event ∈ events → ∀ db : SlashingProtectionDb,
      ∀ call ∈ (db.step event).2, Genuine events call)
    (accounted : Accounted events db signed) (member : event ∈ events) (healthy : event.Healthy) :
    Accounted events (serve sign db event).1 (signed ++ (serve sign db event).2) := by
  obtain ⟨calls, ledger, allGenuine, granted⟩ := accounted
  cases event with
  | database event =>
    refine ⟨calls ++ (db.step event).2, ?_, ?_, ?_⟩
    · exact step_invariant VoteLedger Env.Healthy
        (fun _ _ request ledger => ledger.serveVotes request) db calls event ledger healthy
    · exact fun call isCall => (List.mem_append.mp isCall).elim (allGenuine call)
        (genuine event member db call)
    · intro validator data made
      exact (granted validator data (by simpa [serve] using made)).append _
  | duty validator request env =>
    -- Only an attestation adds a vote, which is genuine because its root tells its epochs.
    have kept : ∀ {after : SlashingProtectionDb}, VoteLedger after calls →
        (∀ data, request ≠ .attestation data) →
        Accounted events after (signed ++ (serve sign db (.duty validator request env)).2) := by
      intro after next unlike
      refine ⟨calls, next, allGenuine, fun signer data made => ?_⟩
      rcases List.mem_append.mp made with old | new
      · exact granted signer data old
      · obtain ⟨_, _, same, -⟩ := mem_serve new
        cases same
        exact absurd rfl (unlike data)
    cases request with
    | attestation data =>
      refine ⟨_, ledger.serveVotes ⟨_, .checkAndRecordAttestation ⟨data.source.epoch,
        data.target.epoch, validator.signingRoot (.attestation data)⟩, env⟩ healthy, ?_, ?_⟩
      · intro call isCall
        rcases List.mem_append.mp isCall with old | new
        · exact allGenuine call old
        · cases List.mem_singleton.mp new
          intro other data' env' isDuty _ root
          cases request_of_signingRoot free (fun _ inMessages => List.mem_flatMap.mpr
            ⟨_, member, inMessages⟩) (fun _ inMessages => List.mem_flatMap.mpr
            ⟨_, isDuty, inMessages⟩) root (Option.some_ne_none _)
          exact ⟨rfl, rfl⟩
      · intro signer data' made
        rcases List.mem_append.mp made with old | new
        · exact (granted signer data' old).append _
        · obtain ⟨_, signature, same, succeeded⟩ := mem_serve new
          cases same
          have passed := congrArg (·.isOk) (isOk_of_map succeeded)
          exact List.mem_append_right _ (List.mem_singleton.mpr (congrArg _ passed.symm))
    | block header =>
      have next : VoteLedger _ (calls ++ []) := ledger.serveVotes ⟨validator.publicKey.bytes,
        .checkAndRecordBlock ⟨header.slot, validator.signingRoot (.block header)⟩, env⟩ healthy
      rw [List.append_nil] at next
      exact kept next (by simp)
    | _ => exact kept ledger (by simp)

theorem Accounted.wellFormed (accounted : Accounted events db signed) : db.trees.WellFormed := by
  obtain ⟨_, ledger, -, -⟩ := accounted
  exact ledger.wellFormed

theorem Accounted.recorded (accounted : Accounted events db signed)
    (performed : ∀ made ∈ signed, ∃ env, .duty made.1 made.2 env ∈ events)
    {signer : EthereumValidator κ} {data : AttestationData}
    (made : (signer, .attestation data) ∈ signed) :
    ∃ record, db.trees.attestations.get
        (attestationKey signer.publicKey.bytes data.target.epoch) = some (.readable record) ∧
      record.signingRoot = signer.signingRoot (.attestation data) ∧
      record.sourceEpoch = data.source.epoch ∧ record.targetEpoch = data.target.epoch := by
  obtain ⟨calls, ledger, allGenuine, granted⟩ := accounted
  obtain ⟨record, found, root⟩ := ledger.recorded _ _ (granted signer data made)
  obtain ⟨-, same, -, read, target⟩ := ledger.wellFormed.vote_of_get found
  cases read
  -- The granted vote behind the record has the root of the attestation, and so its epochs.
  obtain ⟨env, isDuty⟩ := performed _ made
  have isGranted := ledger.granted signer.publicKey.bytes record (by rwa [target])
  obtain ⟨source, -⟩ := allGenuine _ isGranted signer data env isDuty rfl root.symm
  exact ⟨record, found, root, source.symm, target⟩

/-- The attestations a validator is slashed for, if it signs both. -/
def AttestationData.Slashable (first second : AttestationData) : Prop :=
  first ≠ second ∧ first.target.epoch = second.target.epoch ∨
    Surrounds first.source.epoch first.target.epoch second.source.epoch second.target.epoch

/-- No key signs the roots of two slashable attestations, whatever it is asked to sign. -/
theorem signed_attestations_not_slashable (sign : κ → Bytes → Bytes → Bytes)
    (events : List (ServiceEvent κ)) (healthy : ∀ event ∈ events, event.Healthy)
    (genuine : ∀ event, .database event ∈ events → ∀ db : SlashingProtectionDb,
      ∀ call ∈ (db.step event).2, Genuine events call)
    (validator other : EthereumValidator κ) (sameKey : validator.publicKey = other.publicKey)
    (first second : AttestationData)
    (free : CollisionFree (hashed validator (.attestation first) ++
      hashed other (.attestation second) ++ events.flatMap ServiceEvent.hashed))
    (signedFirst : Signed (trace (serve sign) .new events).2 validator.publicKey
      (validator.signingRoot (.attestation first)))
    (signedSecond : Signed (trace (serve sign) .new events).2 other.publicKey
      (other.signingRoot (.attestation second))) :
    ¬ first.Slashable second := by
  obtain ⟨signer, madeFirst, keyFirst, rootFirst⟩ := signedFirst.made
    (Option.some_ne_none _) free (by simp) (by simp)
  obtain ⟨signer', madeSecond, keySecond, rootSecond⟩ := signedSecond.made
    (Option.some_ne_none _) free (by simp) (by simp)
  have along : Along (fun _ event => event ∈ events ∧ event.Healthy) (serve sign) .new events :=
    Along.of_forall (fun _ event member => ⟨member, healthy event member⟩) _
  have eventsFree : CollisionFree (events.flatMap ServiceEvent.hashed) :=
    fun a isA b isB => free a (by simp [isA]) b (by simp [isB])
  have accounted := trace_invariant (Accounted events)
    (fun _ _ _ accounted asked => accounted_serve eventsFree genuine accounted asked.1 asked.2)
    events .new [] ⟨[], .new, by simp, by simp⟩ along
  have performed := duty_of_mem sign events
  obtain ⟨recordFirst, foundFirst, firstRoot, sourceFirst, targetFirst⟩ :=
    accounted.recorded performed madeFirst
  obtain ⟨recordSecond, foundSecond, secondRoot, sourceSecond, targetSecond⟩ :=
    accounted.recorded performed madeSecond
  rw [keyFirst, sameKey] at foundFirst
  rw [keySecond] at foundSecond
  rintro (⟨apart, target⟩ | surrounds)
  · rw [target, foundSecond] at foundFirst
    cases foundFirst
    have same := request_of_signingRoot free (by simp) (by simp)
      (rootFirst.symm.trans (firstRoot.symm.trans (secondRoot.trans rootSecond)))
      (Option.some_ne_none _)
    exact apart (SigningRequest.attestation.inj same)
  · have compatible := accounted.wellFormed.votesCompatible _ _ _ _ _ foundFirst foundSecond
    rw [sourceFirst, targetFirst, sourceSecond, targetSecond] at compatible
    exact compatible.1 surrounds

namespace Known

def root (byte : UInt8) : Root := List.Vector.replicate 32 byte

def signer : EthereumValidator Unit := ⟨⟨Sample.key⟩, (), ⟨List.Vector.replicate 4 0, root 0⟩⟩

def attestation (source target : Epoch) : AttestationData :=
  ⟨0, 0, root 1, ⟨source, root 2⟩, ⟨target, root 3⟩⟩

/-- Two attestations, and between them the root of a block that is not one. -/
def duties : List (ServiceEvent Unit) :=
  [.database (Sample.asks .registerValidator),
    .duty signer (.attestation (attestation 1 2)) Sample.env,
    .duty signer (.syncCommittee 7 (root 4)) Sample.env,
    .duty signer (.attestation (attestation 2 3)) Sample.env]

theorem duties_signed : (trace (serve fun _ _ _ => []) .new duties).2 =
    [(signer, .attestation (attestation 1 2)), (signer, .syncCommittee 7 (root 4)),
      (signer, .attestation (attestation 2 3))] := by
  decide +kernel

end Known

theorem signed_attestations_not_slashable_sample :
    ¬ (Known.attestation 1 2).Slashable (Known.attestation 2 3) := by
  refine signed_attestations_not_slashable (fun _ _ _ => []) Known.duties ?_ ?_ Known.signer
    Known.signer rfl _ _ (by decide +kernel) ?_ ?_
  · simp [Known.duties, ServiceEvent.Healthy, Event.Under, Env.Healthy, Sample.asks, Sample.env]
  · rintro event member db call voted
    have isRegistration : event = Sample.asks .registerValidator := by
      simpa [Known.duties] using member
    rw [isRegistration] at voted
    cases voted
  · exact ⟨(Known.signer, .attestation (Known.attestation 1 2)), by simp [Known.duties_signed],
      rfl, rfl⟩
  · exact ⟨(Known.signer, .attestation (Known.attestation 2 3)), by simp [Known.duties_signed],
      rfl, rfl⟩

end Hsm.Ethereum
