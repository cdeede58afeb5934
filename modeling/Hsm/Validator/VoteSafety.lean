import Hsm.Validator.Invariant

/-! No run of requests and imports grants a validator two votes that are slashable together. -/

namespace Hsm

def Granted (calls : List VoteCall) (publicKey : Bytes) (vote : Vote) : Prop :=
  ⟨publicKey, vote, true⟩ ∈ calls

theorem Granted.append {past : List VoteCall} {publicKey : Bytes} {vote : Vote}
    (granted : Granted past publicKey vote) (later : List VoteCall) :
    Granted (past ++ later) publicKey vote :=
  List.mem_append_left _ granted

/-- Records are exactly the granted votes, up to the source epoch of repeats. -/
structure VoteLedger (db : SlashingProtectionDb) (calls : List VoteCall) : Prop where
  wellFormed : db.trees.WellFormed
  granted : ∀ publicKey data,
    db.trees.attestations.get (attestationKey publicKey data.targetEpoch) = some (.readable data) →
    Granted calls publicKey data.vote
  recorded : ∀ publicKey vote, Granted calls publicKey vote →
    ∃ data, db.trees.attestations.get (attestationKey publicKey vote.target) =
      some (.readable data) ∧ data.signingRoot = vote.root

namespace VoteLedger

variable {db after : SlashingProtectionDb} {past later : List VoteCall}

theorem new : VoteLedger .new [] where
  wellFormed := Trees.WellFormed.empty
  granted := by
    intro publicKey data found
    simp [SlashingProtectionDb.new, SlashingProtectionDb.opened, SlashingProtectionDb.trees,
      Trees.empty] at found
  recorded := by simp [Granted]

theorem of_same (ledger : VoteLedger db past) (wellFormed : after.trees.WellFormed)
    (same : after.trees.attestations = db.trees.attestations)
    (recorded : ∀ publicKey vote, Granted later publicKey vote →
      ∃ data, db.trees.attestations.get (attestationKey publicKey vote.target) =
        some (.readable data) ∧ data.signingRoot = vote.root) :
    VoteLedger after (past ++ later) where
  wellFormed := wellFormed
  granted := by
    intro publicKey data found
    rw [same] at found
    exact (ledger.granted publicKey data found).append later
  recorded := by
    intro publicKey vote granted
    rw [same]
    rcases List.mem_append.mp granted with old | new
    · exact ledger.recorded publicKey vote old
    · exact recorded publicKey vote new

theorem of_insert (ledger : VoteLedger db past) (wellFormed : after.trees.WellFormed)
    {publicKey : Bytes} (data : AttestationData)
    (absent : db.trees.attestations.get (attestationKey publicKey data.targetEpoch) = none)
    (inserted : after.trees.attestations =
      db.trees.attestations.insert (attestationKey publicKey data.targetEpoch) (.readable data)) :
    VoteLedger after (past ++ [⟨publicKey, data.vote, true⟩]) where
  wellFormed := wellFormed
  granted := by
    intro owner found stored
    rw [inserted, Tree.get_insert] at stored
    split at stored
    · rename_i same
      obtain ⟨rfl, -⟩ := recordKey_inj.mp same
      cases stored
      exact List.mem_append_right past (by simp)
    · exact (ledger.granted owner found stored).append _
  recorded := by
    intro owner vote granted
    rw [inserted]
    rcases List.mem_append.mp granted with old | new
    · -- An older grant has its own record, which the free key cannot have replaced.
      obtain ⟨found, stored, root⟩ := ledger.recorded owner vote old
      exact ⟨found, Tree.Extends.insert_of_absent absent _ _ _ stored, root⟩
    · simp only [List.mem_singleton, VoteCall.mk.injEq, and_true] at new
      obtain ⟨rfl, rfl⟩ := new
      exact ⟨data, by simp [AttestationData.vote], rfl⟩

theorem serveVotes (request : Request) (ledger : VoteLedger db past)
    (healthy : request.env.Healthy) :
    VoteLedger (db.serveVotes request).1 (past ++ (db.serveVotes request).2) := by
  have wellFormed : (db.serve request).1.trees.WellFormed :=
    ledger.wellFormed.of_writes (db.serve_writes request)
  obtain ⟨publicKey, operation, env⟩ := request
  have unvoted : ∀ {reply : SlashingProtectionDb × Reply}, reply.1.trees.WellFormed →
      reply.1.trees.attestations = db.trees.attestations → VoteLedger reply.1 (past ++ []) :=
    fun formed same => ledger.of_same formed same (by simp [Granted])
  cases operation with
  | isRegistered | getValidatorSummary | getAttestationRecords | getBlockRecords =>
    exact unvoted wellFormed rfl
  | setMinSourceEpoch epoch | setMinTargetEpoch epoch | setMinSlot epoch =>
    refine unvoted wellFormed ?_
    simp only [SlashingProtectionDb.serve, Prod.map_fst, id_eq,
      SlashingProtectionDb.setMinSourceEpoch, SlashingProtectionDb.setMinTargetEpoch,
      SlashingProtectionDb.setMinSlot]
    rcases db.updateMinimum_cases env publicKey _ with ⟨same, -⟩ | ⟨data, -, made⟩
    · rw [same]
    · rw [made]
      rfl
  | registerValidator =>
    refine unvoted wellFormed ?_
    simp only [SlashingProtectionDb.serve, Prod.map_fst, id_eq]
    rcases db.registerValidator_cases env publicKey with ⟨same, -⟩ | ⟨data, -, -, -, -, -, made⟩
    · rw [same]
    · rw [made]
      rfl
  | checkAndRecordBlock proposal =>
    refine unvoted wellFormed ?_
    simp only [SlashingProtectionDb.serve, Prod.map_fst, id_eq]
    rcases db.checkAndRecordBlock_cases env publicKey proposal.slot proposal.root with
      ⟨same, -⟩ | ⟨same, -⟩ | ⟨data, -, persisted⟩
    · rw [SlashingProtectionDb.trees_of_store same]
    · rw [same]
    · unfold SlashingProtectionDb.trees
      generalize db.checkAndRecordBlock env publicKey proposal.slot proposal.root = out at persisted
      obtain ⟨⟨store, stats⟩, outcome⟩ := out
      cases persisted <;> rfl
  | checkAndRecordAttestation vote =>
    simp only [SlashingProtectionDb.serveVotes, SlashingProtectionDb.serve, Prod.map_fst, id_eq,
      Prod.map_snd, Request.votes] at wellFormed ⊢
    rcases db.checkAndRecordAttestation_cases env publicKey vote.source vote.target vote.root with
      ⟨same, e, refused⟩ | ⟨same, repeated⟩ | ⟨data, fresh, -⟩
    · -- A refusal grants nothing and changes only the statistics.
      refine ledger.of_same wellFormed (by rw [SlashingProtectionDb.trees_of_store same]) ?_
      intro owner other granted
      simp [Granted, refused, Except.isOk, Except.toBool] at granted
    · -- A repeat is granted on the record it found.
      obtain ⟨-, existing, found, root⟩ := Trees.checkAttestation_repeated repeated
      rw [same] at wellFormed ⊢
      refine ledger.of_same wellFormed rfl ?_
      intro owner other granted
      simp only [Granted, List.mem_singleton, VoteCall.mk.injEq] at granted
      obtain ⟨rfl, rfl, -⟩ := granted
      exact ⟨existing, found, root⟩
    · -- On a healthy store a new vote is recorded whenever it is granted.
      obtain ⟨-, absent, -, -⟩ := Trees.checkAttestation_fresh fresh
      rw [db.checkAndRecordAttestation_of_fresh healthy fresh] at wellFormed ⊢
      exact ledger.of_insert wellFormed ⟨vote.source, vote.target, vote.root, env.now⟩ absent rfl

end VoteLedger

open SlashingProtectionDb

theorem voteLedger_of_run (events : List Event) (healthy : ∀ event ∈ events, event.Healthy) :
    VoteLedger (run events).1 (run events).2 := by
  have along : Along (fun _ event => event.Healthy) step .new events :=
    Along.of_forall (fun _ event member => healthy event member) _
  exact trace_invariant VoteLedger
    (step_invariant VoteLedger Env.Healthy fun _ _ request ledger => ledger.serveVotes request)
    events .new [] .new along

/-- No granted votes are slashable, as long as equal roots stand for equal epochs. -/
theorem granted_votes_not_slashable (events : List Event)
    (healthy : ∀ event ∈ events, event.Healthy) (publicKey : Bytes)
    (rootsBind : ∀ a b,
      Granted (run events).2 publicKey a → Granted (run events).2 publicKey b →
      a.root = b.root → a.source = b.source ∧ a.target = b.target) :
    ∀ a b, Granted (run events).2 publicKey a → Granted (run events).2 publicKey b →
      ¬ (a.target = b.target ∧ a.root ≠ b.root) ∧
        ¬ (a.source < b.source ∧ b.target < a.target) := by
  have ledger := voteLedger_of_run events healthy
  intro a b grantedA grantedB
  obtain ⟨recordA, foundA, rootA⟩ := ledger.recorded publicKey a grantedA
  obtain ⟨recordB, foundB, rootB⟩ := ledger.recorded publicKey b grantedB
  -- Each record was granted itself, so it has the epochs of every vote granted on its root.
  have epochs : ∀ {vote record}, Granted (run events).2 publicKey vote →
      (run events).1.trees.attestations.get
        (attestationKey publicKey vote.target) = some (.readable record) →
      record.signingRoot = vote.root →
      record.sourceEpoch = vote.source ∧ record.targetEpoch = vote.target := by
    intro vote record granted found root
    obtain ⟨-, data, -, read, target⟩ := ledger.wellFormed.vote_of_get found
    cases read
    rw [← target] at found
    exact rootsBind record.vote vote (ledger.granted publicKey record found) granted root
  obtain ⟨sourceA, targetA⟩ := epochs grantedA foundA rootA
  obtain ⟨sourceB, targetB⟩ := epochs grantedB foundB rootB
  constructor
  · rintro ⟨target, roots⟩
    rw [target, foundB] at foundA
    cases foundA
    exact roots (rootA.symm.trans rootB)
  · have apart := ledger.wellFormed.votesCompatible publicKey _ _ _ _ foundA foundB
    rw [sourceA, targetA, sourceB, targetB] at apart
    exact apart.1

def sampleVotes : List Event :=
  [Sample.asks .registerValidator, Sample.votes 1 2 1, Sample.votes 1 2 1,
    Sample.importsVote 2 3 2, Sample.votes 0 4 3, Sample.votes 1 2 4, Sample.votes 3 4 5]

theorem sampleVotes_calls : (run sampleVotes).2 =
    [⟨Sample.key, ⟨1, 2, .filled 1⟩, true⟩, ⟨Sample.key, ⟨1, 2, .filled 1⟩, true⟩,
      ⟨Sample.key, ⟨2, 3, .filled 2⟩, true⟩, ⟨Sample.key, ⟨0, 4, .filled 3⟩, false⟩,
      ⟨Sample.key, ⟨1, 2, .filled 4⟩, false⟩, ⟨Sample.key, ⟨3, 4, .filled 5⟩, true⟩] := by
  decide +kernel

theorem granted_votes_not_slashable_sample :
    Granted (run sampleVotes).2 Sample.key ⟨3, 4, .filled 5⟩ ∧
    ∀ a b, Granted (run sampleVotes).2 Sample.key a →
      Granted (run sampleVotes).2 Sample.key b →
      ¬ (a.target = b.target ∧ a.root ≠ b.root) ∧
        ¬ (a.source < b.source ∧ b.target < a.target) := by
  refine ⟨?_, granted_votes_not_slashable sampleVotes ?_ Sample.key ?_⟩
  · simp [sampleVotes_calls, Granted]
  · simp [sampleVotes, Event.Under, Env.Healthy, Sample.asks, Sample.votes, Sample.importsVote,
      Sample.env]
  · rw [sampleVotes_calls]
    simp only [Granted, List.mem_cons, VoteCall.mk.injEq, List.not_mem_nil]
    rintro a b (h | h | h | h | h | h | h) (g | g | g | g | g | g | g) same <;>
      simp_all [SigningRoot.filled]

end Hsm
