import Hsm.Validator.Invariant

/-! Signatures granted across store failures and crashes, and the unflushed repeats that break them. -/

namespace Hsm

inductive Duty where
  | attest (targetEpoch : Epoch)
  | propose (slot : Slot)
  deriving DecidableEq, Repr

structure ValidatorDuty where
  publicKey : Bytes
  duty : Duty
  deriving DecidableEq, Repr

def Trees.recordedRoot (trees : Trees) (due : ValidatorDuty) : Option SigningRoot :=
  match due.duty with
  | .attest targetEpoch =>
    (trees.attestations.get (attestationKey due.publicKey targetEpoch)).bind fun stored =>
      stored.decode.toOption.map AttestationData.signingRoot
  | .propose slot =>
    (trees.blocks.get (blockKey due.publicKey slot)).bind fun stored =>
      stored.decode.toOption.map BlockData.signingRoot

def Request.signs (request : Request) : Option (ValidatorDuty × SigningRoot) :=
  match request.operation with
  | .checkAndRecordAttestation vote => some (⟨request.publicKey, .attest vote.target⟩, vote.root)
  | .checkAndRecordBlock proposal => some (⟨request.publicKey, .propose proposal.slot⟩, proposal.root)
  | _ => none

def Request.granted (request : Request) : Reply → List (ValidatorDuty × SigningRoot)
  | .signed (.ok ()) => request.signs.toList
  | _ => []

/-- What happens over the lives of the process. -/
inductive LifeEvent where
  | request (request : Request)
  | flush (env : Env)
  | crash

/-- A step with crashes, reporting signatures granted. -/
def SlashingProtectionDb.live (db : SlashingProtectionDb) :
    LifeEvent → SlashingProtectionDb × List (ValidatorDuty × SigningRoot)
  | .request asked => ((db.serve asked).1, asked.granted (db.serve asked).2)
  | .flush env => ((db.flush env).1, [])
  | .crash => (db.reopen, [])

def RepeatsDurable (db : SlashingProtectionDb) : LifeEvent → Prop
  | .request asked => ∀ signing ∈ asked.signs,
      db.store.live.recordedRoot signing.1 = some signing.2 →
      db.store.synced.recordedRoot signing.1 = some signing.2
  | _ => True

instance (db : SlashingProtectionDb) : (event : LifeEvent) → Decidable (RepeatsDurable db event)
  | .request asked => inferInstanceAs (Decidable (∀ signing ∈ asked.signs, _))
  | .flush _ => inferInstanceAs (Decidable True)
  | .crash => inferInstanceAs (Decidable True)

namespace Trees

@[simp] theorem recordedRoot_putValidator (trees : Trees) (data : ValidatorData) :
    (trees.putValidator data).recordedRoot = trees.recordedRoot := rfl

theorem grows_of_extends {first second : Trees}
    (votes : first.attestations.Extends second.attestations)
    (blocks : first.blocks.Extends second.blocks) : Durable.Grows recordedRoot first second := by
  rintro ⟨owner, duty⟩ root found
  cases duty with
  | attest target =>
    obtain ⟨stored, got, read⟩ := Option.bind_eq_some_iff.mp found
    exact Option.bind_eq_some_iff.mpr ⟨stored, votes _ _ got, read⟩
  | propose slot =>
    obtain ⟨stored, got, read⟩ := Option.bind_eq_some_iff.mp found
    exact Option.bind_eq_some_iff.mpr ⟨stored, blocks _ _ got, read⟩

end Trees

theorem Persisted.backed {store after : Durable Trees} {insert : Trees → Trees}
    {data : ValidatorData} {outcome : Except SlashingError Unit}
    {past : List (ValidatorDuty × SigningRoot)} {due : ValidatorDuty} {root : SigningRoot}
    (persisted : Persisted store insert (·.putValidator data) after outcome)
    (backed : store.Backed Trees.recordedRoot past)
    (grows : Durable.Grows Trees.recordedRoot store.live (insert store.live))
    (recorded : (insert store.live).recordedRoot due = some root) :
    after.Backed Trees.recordedRoot (past ++ if outcome.isOk then [(due, root)] else []) := by
  have inserted := backed.write grows
  have touched : ((store.write insert).write (·.putValidator data)).Backed Trees.recordedRoot past :=
    inserted.write fun _ _ found => found
  cases persisted with
  | notInserted e => simpa [Except.isOk, Except.toBool] using backed
  | notTouched e => simpa [Except.isOk, Except.toBool] using inserted
  | notFlushed e => simpa [Except.isOk, Except.toBool] using touched
  | flushed => exact touched.flush.promise recorded

namespace SlashingProtectionDb

theorem granted_signed (request : Request) {due : ValidatorDuty} {root : SigningRoot}
    (signs : request.signs = some (due, root)) (outcome : Except SlashingError Unit) :
    request.granted (.signed outcome) = if outcome.isOk then [(due, root)] else [] := by
  cases outcome <;> simp [Request.granted, signs, Except.isOk, Except.toBool]

theorem serve_backed {db : SlashingProtectionDb} {past : List (ValidatorDuty × SigningRoot)}
    (request : Request) (backed : db.store.Backed Trees.recordedRoot past)
    (durable : RepeatsDurable db (.request request)) :
    (db.serve request).1.store.Backed Trees.recordedRoot
      (past ++ request.granted (db.serve request).2) := by
  obtain ⟨publicKey, operation, env⟩ := request
  have rewritten : ∀ data, (db.write (·.putValidator data)).store.Backed Trees.recordedRoot past := by
    intro data
    rw [write_store]
    exact backed.write fun _ _ found => found
  cases operation with
  | isRegistered | getValidatorSummary | getAttestationRecords | getBlockRecords =>
    simpa [serve, Request.granted] using backed
  | setMinSourceEpoch epoch | setMinTargetEpoch epoch | setMinSlot epoch =>
    simp only [serve, Prod.map_fst, Prod.map_snd, id_eq, Request.granted, List.append_nil,
      setMinSourceEpoch, setMinTargetEpoch, setMinSlot]
    rcases updateMinimum_cases db env publicKey _ with ⟨same, -⟩ | ⟨data, -, made⟩
    · rw [same]
      exact backed
    · rw [made]
      exact rewritten _
  | registerValidator =>
    simp only [serve, Prod.map_fst, Prod.map_snd, id_eq, Request.granted, List.append_nil]
    rcases registerValidator_cases db env publicKey with ⟨same, -⟩ | ⟨data, -, -, -, -, -, made⟩
    · rw [same]
      exact backed
    · rw [made]
      exact rewritten data
  | checkAndRecordAttestation vote =>
    simp only [serve, Prod.map_fst, Prod.map_snd, id_eq,
      granted_signed ⟨publicKey, .checkAndRecordAttestation vote, env⟩ rfl]
    rcases checkAndRecordAttestation_cases db env publicKey vote.source vote.target vote.root with
      ⟨same, e, refused⟩ | ⟨same, repeated⟩ | ⟨data, fresh, persisted⟩
    · rw [same, refused]
      simpa [Except.isOk, Except.toBool] using backed
    · -- The repeat is granted on the record in memory, which the condition puts on disk.
      obtain ⟨-, existing, found, root⟩ := Trees.checkAttestation_repeated repeated
      rw [same]
      refine backed.promise (durable _ rfl ?_)
      unfold trees at found
      simp [Trees.recordedRoot, found, root, Stored.decode, Except.toOption]
    · obtain ⟨-, absent, -, -⟩ := Trees.checkAttestation_fresh fresh
      exact persisted.backed backed (Trees.grows_of_extends (.insert_of_absent absent _) (.refl _))
        (by simp [Trees.recordedRoot, Stored.decode, Except.toOption])
  | checkAndRecordBlock proposal =>
    simp only [serve, Prod.map_fst, Prod.map_snd, id_eq,
      granted_signed ⟨publicKey, .checkAndRecordBlock proposal, env⟩ rfl]
    rcases checkAndRecordBlock_cases db env publicKey proposal.slot proposal.root with
      ⟨same, e, refused⟩ | ⟨same, repeated⟩ | ⟨data, fresh, persisted⟩
    · rw [same, refused]
      simpa [Except.isOk, Except.toBool] using backed
    · obtain ⟨-, existing, found, root⟩ := Trees.checkBlock_repeated repeated
      rw [same]
      refine backed.promise (durable _ rfl ?_)
      unfold trees at found
      simp [Trees.recordedRoot, found, root, Stored.decode, Except.toOption]
    · obtain ⟨-, absent, -⟩ := Trees.checkBlock_fresh fresh
      exact persisted.backed backed (Trees.grows_of_extends (.refl _) (.insert_of_absent absent _))
        (by simp [Trees.recordedRoot, Stored.decode, Except.toOption])

theorem live_backed (db : SlashingProtectionDb) (past : List (ValidatorDuty × SigningRoot))
    (event : LifeEvent) (backed : db.store.Backed Trees.recordedRoot past)
    (durable : RepeatsDurable db event) :
    (db.live event).1.store.Backed Trees.recordedRoot (past ++ (db.live event).2) := by
  cases event with
  | request asked => exact serve_backed asked backed durable
  | crash => simpa [live, reopen] using backed.crash
  | flush env =>
    simp only [live, flush, List.append_nil]
    split
    · exact backed
    · exact backed.flush

/-- One root per duty is granted, unless a root that was never flushed is repeated. -/
theorem granted_roots_agree (trees : Trees) (events : List LifeEvent)
    (durable : Along RepeatsDurable live (opened trees) events) (due : ValidatorDuty)
    (first second : SigningRoot) (one : (due, first) ∈ (trace live (opened trees) events).2)
    (two : (due, second) ∈ (trace live (opened trees) events).2) : first = second := by
  have backed := trace_invariant
    (fun db past => db.store.Backed Trees.recordedRoot past) live_backed
    events (opened trees) [] (Durable.Backed.opened trees) durable
  exact backed.agree one two

end SlashingProtectionDb

namespace Sample

def entry : ValidatorData where
  publicKey := key
  size := by decide
  status := .active
  minSourceEpoch := none
  minTargetEpoch := none
  minSlot := none
  createdAt := ⟨0, 0⟩
  updatedAt := ⟨0, 0⟩

def flushes (failure : Option SledError) (source target : Epoch) (byte : UInt8) : LifeEvent :=
  .request ⟨key, .checkAndRecordAttestation ⟨source, target, .filled byte⟩,
    { env with io := { flush := failure } }⟩

def unflushedRetry : List LifeEvent :=
  [flushes (some "disk full") 1 2 1, flushes none 1 2 1, .crash, flushes none 1 2 2]

def crashedRetry : List LifeEvent :=
  [flushes (some "disk full") 1 2 1, .crash, flushes none 1 2 1, .crash, flushes none 1 2 2]

end Sample

open SlashingProtectionDb

theorem unflushed_retry_double_signs :
    (⟨Sample.key, .attest 2⟩, .filled 1) ∈
        (trace live (opened (Trees.empty.putValidator Sample.entry)) Sample.unflushedRetry).2 ∧
      (⟨Sample.key, .attest 2⟩, .filled 2) ∈
        (trace live (opened (Trees.empty.putValidator Sample.entry)) Sample.unflushedRetry).2 ∧
      SigningRoot.filled 1 ≠ .filled 2 := by
  decide +kernel

theorem granted_roots_agree_crashedRetry :
    (⟨Sample.key, .attest 2⟩, .filled 1) ∈
        (trace live (opened (Trees.empty.putValidator Sample.entry)) Sample.crashedRetry).2 ∧
      ∀ root, (⟨Sample.key, .attest 2⟩, root) ∈
        (trace live (opened (Trees.empty.putValidator Sample.entry)) Sample.crashedRetry).2 →
        SigningRoot.filled 1 = root := by
  have granted : (⟨Sample.key, .attest 2⟩, .filled 1) ∈
      (trace live (opened (Trees.empty.putValidator Sample.entry)) Sample.crashedRetry).2 := by
    decide +kernel
  refine ⟨granted, fun root also => ?_⟩
  exact granted_roots_agree (Trees.empty.putValidator Sample.entry) Sample.crashedRetry
    (by decide +kernel) _ _ _ granted also

end Hsm
