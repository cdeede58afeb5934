import Hsm.Lib.Run
import Hsm.Validator.Interchange
import Hsm.Validator.SlashingLaws

/-! Runs of the slashing protection database: requests on public keys, and imports made of them. -/

namespace Hsm

/-- The operations on one public key. -/
inductive Operation where
  | registerValidator
  | isRegistered
  | getValidatorSummary
  | checkAndRecordAttestation (vote : Vote)
  | checkAndRecordBlock (proposal : Proposal)
  | getAttestationRecords
  | getBlockRecords
  | setMinSourceEpoch (epoch : Epoch)
  | setMinTargetEpoch (epoch : Epoch)
  | setMinSlot (slot : Slot)

/-- One call, with the outside conditions it meets. -/
structure Request where
  publicKey : Bytes
  operation : Operation
  env : Env

inductive Reply where
  | done (result : Except ValidatorError Unit)
  | registered (result : Except ValidatorError Bool)
  | summary (result : Except ValidatorError ValidatorSummary)
  | signed (result : Except SlashingError Unit)
  | attestations (result : Except ValidatorError (List AttestationRecord))
  | blocks (result : Except ValidatorError (List BlockRecord))

variable (db : SlashingProtectionDb)

def SlashingProtectionDb.serve (request : Request) :
    SlashingProtectionDb × Reply :=
  let env := request.env
  let publicKey := request.publicKey
  match request.operation with
  | .registerValidator => (db.registerValidator env publicKey).map id .done
  | .isRegistered => (db, .registered (db.isRegistered env publicKey))
  | .getValidatorSummary => (db, .summary (db.getValidatorSummary env publicKey))
  | .checkAndRecordAttestation vote =>
    (db.checkAndRecordAttestation env publicKey vote.source vote.target vote.root).map id .signed
  | .checkAndRecordBlock proposal =>
    (db.checkAndRecordBlock env publicKey proposal.slot proposal.root).map id .signed
  | .getAttestationRecords => (db, .attestations (db.getAttestationRecords env publicKey))
  | .getBlockRecords => (db, .blocks (db.getBlockRecords env publicKey))
  | .setMinSourceEpoch epoch => (db.setMinSourceEpoch env publicKey epoch).map id .done
  | .setMinTargetEpoch epoch => (db.setMinTargetEpoch env publicKey epoch).map id .done
  | .setMinSlot slot => (db.setMinSlot env publicKey slot).map id .done

def Request.votes (request : Request) (reply : Reply) : List VoteCall :=
  match request.operation, reply with
  | .checkAndRecordAttestation vote, .signed result => [⟨request.publicKey, vote, result.isOk⟩]
  | _, _ => []

def SlashingProtectionDb.serveVotes (request : Request) :
    SlashingProtectionDb × List VoteCall :=
  ((db.serve request).1, request.votes (db.serve request).2)

/-- A request, or the import of a file. -/
inductive Event where
  | request (request : Request)
  | importFile (file : Eip3076Interchange) (envs : Nat → Env)

def Event.Under (usable : Env → Prop) : Event → Prop
  | .request asked => usable asked.env
  | .importFile _ envs => ∀ call, usable (envs call)

abbrev Event.Healthy (event : Event) : Prop := event.Under Env.Healthy

def SlashingProtectionDb.step :
    Event → SlashingProtectionDb × List VoteCall
  | .request asked => db.serveVotes asked
  | .importFile file envs => ((file.importRun envs db).1.db, (file.importRun envs db).1.votes)

def SlashingProtectionDb.run (events : List Event) : SlashingProtectionDb × List VoteCall :=
  trace step new events

/-- What healthy runs reach from a new database. -/
def SlashingProtectionDb.Reachable : Prop :=
  ∃ events : List Event, (∀ event ∈ events, event.Healthy) ∧ (run events).1 = db

def ImportState.Reaches (envs : Nat → Env) (before after : ImportState) : Prop :=
  ∃ requests : List Request, (∀ request ∈ requests, ∃ call, request.env = envs call) ∧
    (trace SlashingProtectionDb.serveVotes before.db requests).1 = after.db ∧
    after.votes = before.votes ++ (trace SlashingProtectionDb.serveVotes before.db requests).2

namespace ImportState.Reaches

variable {envs : Nat → Env} {first second third : ImportState}

theorem of_same (db : second.db = first.db) (votes : second.votes = first.votes) :
    Reaches envs first second :=
  ⟨[], by simp, by simp [db], by simp [votes]⟩

theorem trans (before : Reaches envs first second) (after : Reaches envs second third) :
    Reaches envs first third := by
  -- The requests of the second stage continue from the database the first one left.
  obtain ⟨early, earlyEnvs, earlyDb, earlyVotes⟩ := before
  obtain ⟨late, lateEnvs, lateDb, lateVotes⟩ := after
  refine ⟨early ++ late, ?_, ?_, ?_⟩
  · intro request member
    rcases List.mem_append.mp member with inEarly | inLate
    · exact earlyEnvs request inEarly
    · exact lateEnvs request inLate
  · simp [trace_append, earlyDb, lateDb]
  · simp [trace_append, earlyDb, lateVotes, earlyVotes]

theorem of_request (request : Request) {call : Nat} (env : request.env = envs call)
    (db : (first.db.serve request).1 = second.db)
    (votes : second.votes = first.votes ++ request.votes (first.db.serve request).2) :
    Reaches envs first second :=
  ⟨[request], by simp [env], by simp [trace_cons, SlashingProtectionDb.serveVotes, db],
    by simp [trace_cons, SlashingProtectionDb.serveVotes, votes]⟩

end ImportState.Reaches

open ImportState

theorem andThen_reaches {envs : Nat → Env} {α β : Type} {start : ImportState}
    {stage : ImportState × Except ValidatorError α}
    {next : ImportState → α → ImportState × Except ValidatorError β}
    (stageReaches : Reaches envs start stage.1)
    (nextReaches : ∀ state value, Reaches envs state (next state value).1) :
    Reaches envs start (andThen stage next).1 := by
  obtain ⟨state, outcome⟩ := stage
  cases outcome with
  | error e => exact stageReaches
  | ok value => exact stageReaches.trans (nextReaches state value)

theorem importAttestation_reaches (envs : Nat → Env) (publicKey : Bytes)
    (maxima : Option Epoch × Option Epoch) (state : ImportState) (attestation : SignedAttestation) :
    Reaches envs state (importAttestation envs publicKey maxima state attestation).1 := by
  unfold importAttestation
  cases attestation.parse with
  | error e => exact .of_same rfl rfl
  | ok vote =>
    exact .of_request ⟨publicKey, .checkAndRecordAttestation vote, envs state.calls⟩ rfl rfl rfl

theorem importAttestations_reaches (envs : Nat → Env) (publicKey : Bytes)
    (maxima : Option Epoch × Option Epoch) (state : ImportState)
    (attestations : List SignedAttestation) :
    Reaches envs state (importAttestations envs publicKey maxima state attestations).1 := by
  induction attestations generalizing maxima state with
  | nil => exact .of_same rfl rfl
  | cons attestation rest ih =>
    have head := importAttestation_reaches envs publicKey maxima state attestation
    rw [importAttestations]
    cases made : importAttestation envs publicKey maxima state attestation with
    | mk next outcome =>
      rw [made] at head
      cases outcome with
      | error e => exact head
      | ok raised => exact head.trans (ih raised next)

theorem importBlock_reaches (envs : Nat → Env) (publicKey : Bytes) (maxSlot : Option Slot)
    (state : ImportState) (block : SignedBlock) :
    Reaches envs state (importBlock envs publicKey maxSlot state block).1 := by
  unfold importBlock
  cases block.parse with
  | error e => exact .of_same rfl rfl
  | ok proposal =>
    exact .of_request ⟨publicKey, .checkAndRecordBlock proposal, envs state.calls⟩ rfl rfl
      (by simp [Request.votes])

theorem importBlocks_reaches (envs : Nat → Env) (publicKey : Bytes) (maxSlot : Option Slot)
    (state : ImportState) (blocks : List SignedBlock) :
    Reaches envs state (importBlocks envs publicKey maxSlot state blocks).1 := by
  induction blocks generalizing maxSlot state with
  | nil => exact .of_same rfl rfl
  | cons block rest ih =>
    have head := importBlock_reaches envs publicKey maxSlot state block
    rw [importBlocks]
    cases made : importBlock envs publicKey maxSlot state block with
    | mk next outcome =>
      rw [made] at head
      cases outcome with
      | error e => exact head
      | ok raised => exact head.trans (ih raised next)

theorem importRegistration_reaches (envs : Nat → Env) (publicKey : Bytes) (state : ImportState) :
    Reaches envs state (importRegistration envs publicKey state).1 := by
  unfold importRegistration
  split
  · exact .of_same rfl rfl
  · exact .of_same rfl rfl
  · have registered : Reaches envs state
        { state with db := (state.db.registerValidator (envs (state.calls + 1)) publicKey).1 } :=
      .of_request ⟨publicKey, .registerValidator, envs (state.calls + 1)⟩ rfl rfl
        (by simp [Request.votes])
    split
    · rename_i db e made
      rw [made] at registered
      exact registered.trans (.of_same rfl rfl)
    · rename_i db made
      rw [made] at registered
      exact registered.trans (.of_same rfl rfl)

theorem importMinimum_reaches (envs : Nat → Env) (publicKey : Bytes)
    (operation : UInt64 → Operation)
    (set : SlashingProtectionDb → Env → UInt64 → SlashingProtectionDb × Except ValidatorError Unit)
    (serves : ∀ db env value,
      db.serve ⟨publicKey, operation value, env⟩ = (set db env value).map id .done)
    (maximum : Option UInt64) (state : ImportState) :
    Reaches envs state (importMinimum envs set maximum state).1 := by
  unfold importMinimum
  cases maximum with
  | none => exact .of_same rfl rfl
  | some minimum =>
    have served := serves state.db (envs state.calls) minimum
    refine .of_request ⟨publicKey, operation minimum, envs state.calls⟩ rfl ?_ ?_
    · rw [served]; rfl
    · rw [served]
      simp only [Request.votes, Prod.map_snd]
      split <;> simp_all

theorem importValidator_reaches (envs : Nat → Env) (state : ImportState)
    (validatorData : InterchangeData) :
    Reaches envs state (importValidator envs state validatorData).1 := by
  unfold importValidator
  cases parseHexPubkey validatorData.pubkey with
  | error e => exact .of_same rfl rfl
  | ok publicKey =>
    -- The stages follow the order of the source: registration, votes, minima, blocks, minimum.
    refine andThen_reaches (importRegistration_reaches ..) fun state _ => ?_
    refine andThen_reaches (importAttestations_reaches ..) fun state maxima => ?_
    refine andThen_reaches
      (importMinimum_reaches envs publicKey .setMinSourceEpoch _ (fun _ _ _ => rfl) ..)
      fun state _ => ?_
    refine andThen_reaches
      (importMinimum_reaches envs publicKey .setMinTargetEpoch _ (fun _ _ _ => rfl) ..)
      fun state _ => ?_
    refine andThen_reaches (importBlocks_reaches ..) fun state maxSlot => ?_
    exact importMinimum_reaches envs publicKey .setMinSlot _ (fun _ _ _ => rfl) ..

theorem importValidators_reaches (envs : Nat → Env) (state : ImportState)
    (data : List InterchangeData) : Reaches envs state (importValidators envs state data).1 := by
  induction data generalizing state with
  | nil => exact .of_same rfl rfl
  | cons validatorData rest ih =>
    rw [importValidators]
    exact andThen_reaches (importValidator_reaches ..) fun state _ => ih state

/-- What requests preserve, imports preserve. -/
theorem importRun_reaches (file : Eip3076Interchange) (envs : Nat → Env)
    (db : SlashingProtectionDb) : Reaches envs { db } (file.importRun envs db).1 :=
  importValidators_reaches ..

theorem step_invariant (inv : SlashingProtectionDb → List VoteCall → Prop) (usable : Env → Prop)
    (preserved : ∀ db past request, inv db past → usable request.env →
      inv (db.serveVotes request).1 (past ++ (db.serveVotes request).2))
    (db : SlashingProtectionDb) (past : List VoteCall) (event : Event) (holds : inv db past)
    (under : event.Under usable) :
    inv (db.step event).1 (past ++ (db.step event).2) := by
  cases event with
  | request asked => exact preserved db past asked holds under
  | importFile file envs =>
    -- The import's requests form a run of their own, over which the rule is applied once more.
    obtain ⟨requests, fromStream, reached, voted⟩ := importRun_reaches file envs db
    have along : Along (fun _ request => usable request.env) SlashingProtectionDb.serveVotes db
        requests := by
      refine Along.of_forall (fun _ request member => ?_) db
      obtain ⟨call, same⟩ := fromStream request member
      rw [same]
      exact under call
    have ends := trace_invariant inv preserved requests db past holds along
    simp only [List.nil_append] at voted
    simpa [SlashingProtectionDb.step, ← reached, voted] using ends

namespace Sample

def key : Bytes := List.replicate 48 1

def env : Env := { now := ⟨0, 0⟩ }

def asks (operation : Operation) : Event := .request ⟨key, operation, env⟩

/-- A vote with a root of equal bytes. -/
def votes (source target : Epoch) (byte : UInt8) : Event :=
  asks (.checkAndRecordAttestation ⟨source, target, .filled byte⟩)

def voteFile (source target : Epoch) (byte : UInt8) : Eip3076Interchange :=
  ⟨⟨interchangeFormatVersion, ""⟩, [{
    pubkey := "0x" ++ hexEncode key
    signedBlocks := []
    signedAttestations := [⟨u64ToString source, u64ToString target,
      some (SigningRoot.filled byte).toHex⟩] }]⟩

def importsVote (source target : Epoch) (byte : UInt8) : Event :=
  .importFile (voteFile source target byte) fun _ => env

end Sample

end Hsm
