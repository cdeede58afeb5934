import Hsm.Audit.HashChain
import Hsm.Audit.MerkleTree

/-! The tamper detector's full check and its quick one, and where the two agree. -/

namespace Hsm

/-- What is found wrong with a list of events. -/
inductive Violation where
  | hashMismatch (sequence : Nat) (expected actual : String)
  | hashChainBroken (sequence : Nat) (expected actual : String)
  | sequenceGap (prev next : Nat)
  | duplicateSequence (sequence : Nat)
  | timestampAnomaly (sequence : Nat) (prevTime currTime : DateTime)
  | eventModified (sequence : Nat) (details : String)
  deriving DecidableEq, Repr

namespace Violation

/-- The violations that the quick check looks for. -/
def breaksChain : Violation → Bool
  | .hashMismatch .. | .hashChainBroken .. | .sequenceGap .. => true
  | _ => false

def isDuplicate : Violation → Bool
  | .duplicateSequence _ => true
  | _ => false

end Violation

structure IntegrityReport where
  totalEvents : Nat
  violations : List Violation
  merkleRoot : Option String
  deriving DecidableEq, Repr

inductive TamperDetectionError where
  | emptyLog
  deriving DecidableEq, Repr

def DateTime.sinceEpoch (time : DateTime) : Int := time.seconds * 1000000000 + time.nanos

namespace TamperDetector

def verifyHashChain : String → List AuditEvent → List Violation
  | _, [] => []
  | prevHash, event :: rest =>
    (if event.prevHash ≠ prevHash then
      [.hashChainBroken event.sequence prevHash event.prevHash] else []) ++
    verifyHashChain event.currentHash rest

def nextSequence (sequence : Nat) : Nat := (sequence + 1) % 2 ^ 64

def verifySequences : List Nat → Nat → List AuditEvent → List Violation
  | _, _, [] => []
  | seen, prevSequence, event :: rest =>
    (if event.sequence ∈ seen then [.duplicateSequence event.sequence] else []) ++
    (if prevSequence > 0 ∧ event.sequence ≠ nextSequence prevSequence then
      [.sequenceGap prevSequence event.sequence] else []) ++
    verifySequences (event.sequence :: seen) event.sequence rest

def verifyTimestamps : Option DateTime → List AuditEvent → List Violation
  | _, [] => []
  | prevTime, event :: rest =>
    (match prevTime with
      | none => []
      -- Clocks may go back by less than two seconds.
      | some prev =>
        if event.timestamp.sinceEpoch < prev.sinceEpoch ∧
            (prev.sinceEpoch - event.timestamp.sinceEpoch).tdiv 1000000000 > 1 then
          [.timestampAnomaly event.sequence prev event.timestamp] else []) ++
    verifyTimestamps (some event.timestamp) rest

variable (prim : AuditPrimitives)

def verifyEventHashes (events : List AuditEvent) : List Violation :=
  events.flatMap fun event =>
    if event.computeHash prim ≠ event.currentHash then
      [.hashMismatch event.sequence event.currentHash (event.computeHash prim)] else []

/-- Without a root, only inclusion is verified. -/
def verifyMerkleConsistency (events : List AuditEvent) : List Violation × Option String :=
  let tree := MerkleTree.fromHashes prim (events.map AuditEvent.currentHash)
  match tree.getRoot with
  | .error _ => ([], none)
  | .ok root => (events.flatMap fun event =>
      if tree.verifyInclusion event.currentHash then []
      else [.eventModified event.sequence "Event not found in Merkle tree"], some root)

def verifyIntegrity (events : List AuditEvent) : Except TamperDetectionError IntegrityReport :=
  if events.isEmpty then .error .emptyLog
  else
    let merkle := verifyMerkleConsistency prim events
    .ok ⟨events.length, verifyHashChain genesisHash events ++ verifySequences [] 0 events ++
      verifyEventHashes prim events ++ merkle.1 ++ verifyTimestamps none events, merkle.2⟩

def quickLoop : String → Nat → List AuditEvent → Bool
  | _, _, [] => true
  | prevHash, prevSequence, event :: rest =>
    if event.prevHash ≠ prevHash then false
    else if event.verifyHash prim = false then false
    else if prevSequence > 0 ∧ event.sequence ≠ nextSequence prevSequence then false
    else quickLoop event.currentHash event.sequence rest

def quickVerify (events : List AuditEvent) : Except TamperDetectionError Bool :=
  if events.isEmpty then .error .emptyLog else .ok (quickLoop prim genesisHash 0 events)

theorem forall_mem_ite {c : Prop} [Decidable c] {violation : Violation} {p : Violation → Prop} :
    (∀ found ∈ if c then [violation] else [], p found) ↔ (c → p violation) := by
  split_ifs with holds <;> simp [holds]

/-- The quick check finds what breaks the chain. -/
theorem quickLoop_eq (prevHash : String) (seen : List Nat) (prevSequence : Nat)
    (events : List AuditEvent) :
    quickLoop prim prevHash prevSequence events = true ↔
      ∀ violation ∈ verifyHashChain prevHash events ++ verifySequences seen prevSequence events ++
        verifyEventHashes prim events, violation.breaksChain = false := by
  induction events generalizing prevHash seen prevSequence with
  | nil => simp [quickLoop, verifyHashChain, verifySequences, verifyEventHashes]
  | cons event rest ih =>
    -- Both checks go on from the hash and the number that the event has.
    have later := ih event.currentHash (event.sequence :: seen) event.sequence
    simp only [verifyEventHashes, List.forall_mem_append] at later
    simp only [quickLoop, verifyHashChain, verifySequences, verifyEventHashes, List.flatMap_cons,
      List.forall_mem_append, forall_mem_ite, Violation.breaksChain, AuditEvent.verifyHash,
      decide_eq_false_iff_not, @eq_comm _ event.currentHash, Bool.if_false_left, Bool.and_eq_true,
      Bool.not_eq_true', later]
    grind

/-- Duplicates are found exactly if numbers repeat. -/
theorem isDuplicate_verifySequences (seen : List Nat) (prevSequence : Nat)
    (events : List AuditEvent) :
    (∀ violation ∈ verifySequences seen prevSequence events, violation.isDuplicate = false) ↔
      (events.map AuditEvent.sequence).Nodup ∧ ∀ event ∈ events, event.sequence ∉ seen := by
  induction events generalizing seen prevSequence with
  | nil => simp [verifySequences]
  | cons event rest ih =>
    simp only [verifySequences, List.forall_mem_append, forall_mem_ite, ih]
    simp only [Violation.isDuplicate, List.map_cons, List.nodup_cons, List.mem_cons, not_or]
    grind

theorem isDuplicate_verifyHashChain (prevHash : String) (events : List AuditEvent) :
    ∀ violation ∈ verifyHashChain prevHash events, violation.isDuplicate = false := by
  induction events generalizing prevHash with
  | nil => simp [verifyHashChain]
  | cons event rest ih =>
    rw [verifyHashChain, List.forall_mem_append, forall_mem_ite]
    exact ⟨fun _ => rfl, ih _⟩

theorem isDuplicate_verifyEventHashes (events : List AuditEvent) :
    ∀ violation ∈ verifyEventHashes prim events, violation.isDuplicate = false := by
  intro violation member
  obtain ⟨event, -, found⟩ := List.mem_flatMap.mp member
  exact forall_mem_ite (p := (·.isDuplicate = false)) |>.mpr (fun _ => rfl) violation found

theorem plain_verifyMerkleConsistency (events : List AuditEvent) :
    ∀ violation ∈ (verifyMerkleConsistency prim events).1,
      violation.breaksChain = false ∧ violation.isDuplicate = false := by
  intro violation member
  unfold verifyMerkleConsistency at member
  cases root : (MerkleTree.fromHashes prim (events.map AuditEvent.currentHash)).getRoot with
  | error error => simp [root] at member
  | ok hash =>
    simp only [root, List.mem_flatMap] at member
    obtain ⟨event, -, found⟩ := member
    split_ifs at found <;> simp_all [Violation.isDuplicate, Violation.breaksChain]

theorem plain_verifyTimestamps (prevTime : Option DateTime) (events : List AuditEvent) :
    ∀ violation ∈ verifyTimestamps prevTime events,
      violation.breaksChain = false ∧ violation.isDuplicate = false := by
  induction events generalizing prevTime with
  | nil => simp [verifyTimestamps]
  | cons event rest ih =>
    cases prevTime with
    | none => exact ih _
    | some prev =>
      rw [verifyTimestamps, List.forall_mem_append, forall_mem_ite]
      exact ⟨fun _ => ⟨rfl, rfl⟩, ih _⟩

/-- Events are linked from a hash on, carry their own hashes, and count on from numbers other
than zero. -/
structure Intact (prevHash : String) (prevSequence : Nat) (events : List AuditEvent) : Prop where
  linked : ∀ pair ∈ (prevHash :: events.map AuditEvent.currentHash).zip events,
    pair.2.prevHash = pair.1
  hashed : ∀ event ∈ events, event.currentHash = event.computeHash prim
  numbered : ∀ pair ∈ (prevSequence :: events.map AuditEvent.sequence).zip events,
    0 < pair.1 → pair.2.sequence = nextSequence pair.1

theorem intact_cons {prevHash : String} {prevSequence : Nat} {event : AuditEvent}
    {rest : List AuditEvent} :
    Intact prim prevHash prevSequence (event :: rest) ↔
      (event.prevHash = prevHash ∧ event.currentHash = event.computeHash prim ∧
        (0 < prevSequence → event.sequence = nextSequence prevSequence)) ∧
        Intact prim event.currentHash event.sequence rest := by
  constructor
  · rintro ⟨linked, hashed, numbered⟩
    rw [List.map_cons, List.zip_cons_cons, List.forall_mem_cons] at linked numbered
    rw [List.forall_mem_cons] at hashed
    exact ⟨⟨linked.1, hashed.1, numbered.1⟩, linked.2, hashed.2, numbered.2⟩
  · rintro ⟨⟨link, hash, number⟩, linked, hashed, numbered⟩
    refine ⟨?_, List.forall_mem_cons.mpr ⟨hash, hashed⟩, ?_⟩
    · rw [List.map_cons, List.zip_cons_cons, List.forall_mem_cons]
      exact ⟨link, linked⟩
    · rw [List.map_cons, List.zip_cons_cons, List.forall_mem_cons]
      exact ⟨number, numbered⟩

/-- The quick check accepts the intact events. -/
theorem quickLoop_intact (prevHash : String) (prevSequence : Nat) (events : List AuditEvent) :
    quickLoop prim prevHash prevSequence events = true ↔
      Intact prim prevHash prevSequence events := by
  induction events generalizing prevHash prevSequence with
  | nil => exact ⟨fun _ => ⟨by simp, by simp, by simp⟩, fun _ => rfl⟩
  | cons event rest ih =>
    rw [intact_cons, ← ih, quickLoop, AuditEvent.verifyHash]
    grind

/-- The checks agree exactly if numbers are distinct, or a link, hash or number is broken. -/
theorem quick_verify_agrees_iff (events : List AuditEvent) (nonempty : events ≠ []) :
    ∃ report, verifyIntegrity prim events = .ok report ∧
      ((quickVerify prim events = .ok true ↔ ∀ violation ∈ report.violations,
          violation.breaksChain = false ∧ violation.isDuplicate = false) ↔
        (events.map AuditEvent.sequence).Nodup ∨ ¬ Intact prim genesisHash 0 events) := by
  have notEmpty : events.isEmpty = false := by simpa using nonempty
  rw [verifyIntegrity, quickVerify, notEmpty, ← quickLoop_intact]
  refine ⟨_, rfl, ?_⟩
  have quick := quickLoop_eq prim genesisHash [] 0 events
  have distinct := isDuplicate_verifySequences [] 0 events
  simp only [List.not_mem_nil, not_false_eq_true, implies_true, and_true] at distinct
  have chain := isDuplicate_verifyHashChain genesisHash events
  have hashes := isDuplicate_verifyEventHashes prim events
  have merkle := forall₂_and.mp (plain_verifyMerkleConsistency prim events)
  have times := forall₂_and.mp (plain_verifyTimestamps none events)
  -- Of what the full check reports, the quick one passes over the duplicates.
  simp only [Bool.false_eq_true, if_false, Except.ok.injEq, forall₂_and, quick,
    List.forall_mem_append, distinct, and_iff_left times.1, and_iff_left times.2,
    and_iff_left merkle.1, and_iff_left merkle.2, and_iff_left hashes, and_iff_right chain]
  tauto

def sampleEvent (sequence : Nat) : AuditEvent :=
  ⟨⟨0, 0⟩, sequence, .sign, "sign", "default", "client", none, .success, genesisHash, "", none⟩

def hashed (event : AuditEvent) : AuditEvent :=
  { event with currentHash := event.computeHash .standard }

theorem repeated_zero_passes :
    let first := hashed (sampleEvent 0)
    let events := [first, hashed { first with prevHash := first.currentHash }]
    quickVerify .standard events = .ok true ∧
      (verifyIntegrity .standard events).map (·.violations) = .ok [.duplicateSequence 0] := by
  decide +kernel

/-- Events numbered one by one from the genesis hash on. -/
def sampleEvents : String → List Nat → List AuditEvent
  | _, [] => []
  | prevHash, sequence :: rest =>
    let event := hashed { sampleEvent sequence with prevHash }
    event :: sampleEvents event.currentHash rest

theorem sampleEvents_sequence (prevHash : String) (sequences : List Nat) :
    (sampleEvents prevHash sequences).map AuditEvent.sequence = sequences := by
  induction sequences generalizing prevHash with
  | nil => rfl
  | cons sequence rest ih => rw [sampleEvents, List.map_cons, ih]; rfl

theorem quick_verify_agrees_from_zero :
    ∃ report, verifyIntegrity .standard (sampleEvents genesisHash [0, 5, 6]) = .ok report ∧
      (quickVerify .standard (sampleEvents genesisHash [0, 5, 6]) = .ok true ↔
        ∀ violation ∈ report.violations,
          violation.breaksChain = false ∧ violation.isDuplicate = false) := by
  obtain ⟨report, reported, agree⟩ :=
    quick_verify_agrees_iff .standard (sampleEvents genesisHash [0, 5, 6]) (by simp [sampleEvents])
  refine ⟨report, reported, agree.mpr (.inl ?_)⟩
  rw [sampleEvents_sequence]
  decide

end TamperDetector

end Hsm
