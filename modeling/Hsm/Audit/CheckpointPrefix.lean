import Hsm.Audit.Tampering

/-! What a checkpoint says about the events it commits to, at its own sequence number and behind it. -/

namespace Hsm

namespace AuditLogger

theorem log_checkpoint {prim : AuditPrimitives} {logger next : AuditLogger} {io : AuditIo}
    {now : DateTime} {builder : AuditEventBuilder} {sequence : Nat} (sound : logger.Sound prim)
    (logged : logger.log prim io now builder = (next, .ok sequence)) :
    next.merkleTree.leaves.length = sequence ∧
      ∃ root, merkleRoot prim next.merkleTree.leaves = some root ∧
        next.storage.dir.checkpoint =
          some (.checkpoint (.new prim sequence root logger.config.checkpointKey)) := by
  obtain ⟨event, root, done, number⟩ := log_ok logged
  obtain ⟨storage, -, stored⟩ := done.written
  have after := log_sound sound io now builder
  rw [logged] at after
  refine ⟨?_, root, ?_, ?_⟩
  · -- The event's number is the number of leaves, the new one included.
    rw [done.tree, MerkleTree.update_leaves, List.length_append, ← sound.counted, ← number,
      done.sequence]
    rfl
  · rw [← after.tree, done.root]
  · rw [stored, number]

/-- A log beyond the checkpoint is accepted on its numbering alone. -/
theorem beyond_checkpoint_ok_iff {prim : AuditPrimitives} {config : AuditConfig} {dir : LogDir}
    {sequence : Nat} {root : String}
    (checkpoint : dir.checkpoint =
      some (.checkpoint (.new prim sequence root config.checkpointKey)))
    {events : List AuditEvent} (read : LogFile.events prim (dir.current.getD []) = .ok events)
    (longer : sequence < events.length) :
    (∃ reopened, new prim config.rebuilding {} dir = .ok reopened) ↔ Consecutive 0 events := by
  -- The tip is neither behind the checkpoint nor at it, so nothing is compared.
  have passes : PassesCheckpoint prim config.rebuilding.checkpointKey
      (events.map AuditEvent.currentHash) dir.checkpoint := by
    rw [checkpoint, AuditConfig.rebuilding_checkpointKey, PassesCheckpoint,
      Checkpoint.verifyAgainstLive_new, List.length_map]
    exact ⟨by omega, fun level => by omega⟩
  rw [new_ok_iff prim rfl read]
  exact and_iff_left passes

/-- Startup compares the root of a log with the checkpoint only where the log ends there. -/
theorem checkpoint_commits_at_tip {prim : AuditPrimitives} {logger next : AuditLogger}
    (live : Live prim logger) {io : AuditIo} {now : DateTime} {builder : AuditEventBuilder}
    {sequence : Nat} (logged : logger.log prim io now builder = (next, .ok sequence))
    {dir : LogDir} (kept : dir.checkpoint = next.storage.dir.checkpoint)
    {events : List AuditEvent} (read : LogFile.events prim (dir.current.getD []) = .ok events) :
    ∃ root,
      next.storage.dir.checkpoint =
          some (.checkpoint (.new prim sequence root logger.config.checkpointKey)) ∧
        (events.length = sequence →
          (∃ reopened, new prim logger.config.rebuilding {} dir = .ok reopened) →
            merkleRoot prim (events.map AuditEvent.currentHash) = some root ∧
              (NoCollision prim (events.map AuditEvent.currentHash) next.merkleTree.leaves →
                events.map AuditEvent.currentHash = next.merkleTree.leaves)) ∧
        (sequence < events.length →
          ((∃ reopened, new prim logger.config.rebuilding {} dir = .ok reopened) ↔
            Consecutive 0 events)) := by
  obtain ⟨count, root, committed, checkpoint⟩ := log_checkpoint live.sound logged
  refine ⟨root, checkpoint, ?_, ?_⟩
  · intro length accepted
    obtain ⟨-, passes⟩ := (new_ok_iff prim rfl read).mp accepted
    -- The tip is at the checkpoint, so the live root was compared with the committed one.
    rw [kept, checkpoint, AuditConfig.rebuilding_checkpointKey, PassesCheckpoint,
      Checkpoint.verifyAgainstLive_new] at passes
    have nonempty : 0 < (events.map AuditEvent.currentHash).length := by
      rw [List.length_map, length, ← count]
      exact (List.length_pos_iff).mpr fun empty => by
        rw [empty] at committed
        cases committed
    obtain ⟨liveRoot, found⟩ := Option.isSome_iff_exists.mp (merkleRoot_isSome prim nonempty)
    have same : liveRoot = root := passes.2 (by simp [length]) liveRoot found
    have roots : merkleRoot prim (events.map AuditEvent.currentHash) = some root := by
      rw [found, same]
    refine ⟨roots, fun free => ?_⟩
    exact merkleRoot_inj (by simp [length, count]) free (by rw [roots, committed])
  · intro longer
    exact beyond_checkpoint_ok_iff (kept.trans checkpoint) read longer

end AuditLogger

namespace Sample

def second (event : AuditEvent) : AuditEvent := { event with sequence := 2 }

def forged : List AuditEvent := rewritten rehashed ++ rewritten second

theorem forged_legible : ∀ event ∈ forged, event.reread .standard = .ok event := by
  intro event member
  rcases List.mem_append.mp member with front | back
  · exact rewritten_legible rehashed (fun _ => rfl) event front
  · exact rewritten_legible second (fun _ => rfl) event back

theorem forged_length : forged.length = 2 := by
  have length : signed.storage.writtenEvents.length = 1 := by
    simpa using congrArg List.length signed_hashes
  simp [forged, rewritten, length]

theorem signed_leaves : signed.merkleTree.leaves =
    ["b4395831693b189eb75ebb731f10e4b0691b48cfe6bb262819df3ee7418cc8eb"] :=
  signed_written.inStep.leaves.trans signed_hashes

def forgedFile : LogFile := forged.map (LogLine.ofEvent .standard)

/-- A second event is signed behind the first. -/
def twice : AuditLogger := (signed.log .standard {} ⟨1735689601, 0⟩ signing).1

def twiceHashes : List String :=
  ["b4395831693b189eb75ebb731f10e4b0691b48cfe6bb262819df3ee7418cc8eb",
    "1162406ddf380435c778dfbc2d3e02a9a2d2e446510627655b676d0ea1485236"]

theorem twice_evaluated :
    (signed.log .standard {} ⟨1735689601, 0⟩ signing).2 = .ok 2 ∧
      twice.storage.writtenEvents.map (fun event =>
          (event.operation, event.currentHash, event.metadata.isNone)) =
        twiceHashes.map (fun hash => ("sign", hash, true)) ∧
      signed.storage.currentSize < signed.storage.config.maxFileSize := by
  decide +kernel

theorem twice_logged :
    signed.log .standard {} ⟨1735689601, 0⟩ signing = (twice, .ok 2) := by
  rw [twice, ← twice_evaluated.1]

theorem twice_written : AuditLogger.Written .standard auditConfig twice :=
  .log signed_written twice_evaluated.2.2 twice_logged

/-- Both events are said to be verifications. -/
def twiceRenamed : List AuditEvent := twice.storage.writtenEvents.map renamed

theorem twiceRenamed_legible : ∀ event ∈ twiceRenamed, event.reread .standard = .ok event := by
  intro event member
  obtain ⟨before, written, rfl⟩ := List.mem_map.mp member
  have bare : twice.storage.writtenEvents.map (fun event => event.metadata.isNone) =
      [true, true] := by
    simpa [twiceHashes, Function.comp_def] using
      congrArg (List.map fun found => found.2.2) twice_evaluated.2.1
  have none : before.metadata.isNone ∈ [true, true] := bare ▸ List.mem_map_of_mem written
  apply AuditEvent.reread_none
  simpa [renamed] using none

theorem twiceRenamed_hashes : twiceRenamed.map AuditEvent.currentHash = twiceHashes := by
  have hashes := congrArg (List.map fun found => found.2.1) twice_evaluated.2.1
  simpa [twiceRenamed, renamed, Function.comp_def] using hashes

theorem twice_leaves : twice.merkleTree.leaves = twiceHashes := by
  rw [twice_written.inStep.leaves, ← twiceRenamed_hashes]
  simp [twiceRenamed, renamed]

theorem twiceRenamed_operations :
    twice.storage.writtenEvents.map AuditEvent.operation = ["sign", "sign"] ∧
      twiceRenamed.map AuditEvent.operation = ["verify", "verify"] := by
  have operations := congrArg (List.map fun found => found.1) twice_evaluated.2.1
  have length : twiceRenamed.length = 2 := by
    simpa [twiceHashes] using congrArg List.length twiceRenamed_hashes
  obtain ⟨first, second, both⟩ := List.length_eq_two.mp
    (show twice.storage.writtenEvents.length = 2 by simpa [twiceRenamed] using length)
  refine ⟨by simpa [twiceHashes, Function.comp_def] using operations, ?_⟩
  simp [twiceRenamed, renamed, both]

def twiceRenamedDir : LogDir :=
  twice.tamperedDir (twiceRenamed.map (LogLine.ofEvent .standard))

end Sample

open AuditLogger

theorem rewritten_prefix_accepted :
    Sample.forged.length ≥ 1 ∧
      (∃ reopened, new .standard Sample.auditConfig.rebuilding {}
        (Sample.signed.tamperedDir Sample.forgedFile) = .ok reopened) ∧
      ∃ root, Sample.signed.storage.dir.checkpoint =
          some (.checkpoint (.new .standard 1 root Sample.auditConfig.checkpointKey)) ∧
        merkleRoot .standard ((Sample.forged.take 1).map AuditEvent.currentHash) ≠ some root := by
  have live : Live .standard (starting Sample.auditConfig .empty) := .opened Sample.signing_opened
  obtain ⟨-, root, committed, checkpoint⟩ := log_checkpoint live.sound Sample.signing_logged
  have read : LogFile.events .standard
      ((Sample.signed.tamperedDir Sample.forgedFile).current.getD []) = .ok Sample.forged :=
    LogFile.events_ofEvent Sample.forged_legible
  have length := Sample.forged_length
  have numbered : Consecutive 0 Sample.forged := by
    obtain ⟨event, single⟩ : ∃ event, Sample.signed.storage.writtenEvents = [event] :=
      List.length_eq_one_iff.mp (by simpa using congrArg List.length Sample.signed_hashes)
    have first : Consecutive 0 [event] := single ▸ Sample.signed_written.inStep.consecutive
    have one : event.sequence = 1 := by simpa [Consecutive] using first
    simp [Consecutive, Sample.forged, Sample.rewritten, Sample.rehashed, Sample.second, single, one,
      List.range']
  have kept : (Sample.signed.tamperedDir Sample.forgedFile).checkpoint =
      some (.checkpoint (.new .standard 1 root Sample.auditConfig.checkpointKey)) := by
    rw [tamperedDir_checkpoint]
    exact checkpoint
  have accepted := beyond_checkpoint_ok_iff kept read (by omega)
  refine ⟨by omega, accepted.mpr numbered, root, checkpoint, ?_⟩
  have first : (Sample.forged.take 1).map AuditEvent.currentHash = [""] := by
    have whole := congrArg List.length Sample.rewritten_rehashed
    rw [List.length_map, List.length_singleton] at whole
    rw [Sample.forged, List.take_left' whole, Sample.rewritten_rehashed]
  rw [← committed, first, Sample.signed_leaves]
  decide +kernel

theorem checkpoint_commits_at_tip_signed :
    ∃ root, Sample.twice.storage.dir.checkpoint =
        some (.checkpoint (.new .standard 2 root Sample.auditConfig.checkpointKey)) ∧
      Sample.twiceRenamed.map AuditEvent.operation ≠
        Sample.twice.storage.writtenEvents.map AuditEvent.operation ∧
      (∃ reopened, new .standard Sample.auditConfig.rebuilding {} Sample.twiceRenamedDir =
        .ok reopened) ∧
      merkleRoot .standard (Sample.twiceRenamed.map AuditEvent.currentHash) = some root ∧
      Sample.twiceRenamed.map AuditEvent.currentHash = Sample.twice.merkleTree.leaves := by
  have live : Live .standard Sample.signed :=
    .logged (.opened Sample.signing_opened) {} ⟨1735689600, 0⟩ Sample.signing
  have legible := LogFile.events_ofEvent Sample.twiceRenamed_legible
  have read : LogFile.events .standard (Sample.twiceRenamedDir.current.getD []) =
      .ok Sample.twiceRenamed := Sample.twice.tamperedDir_events legible
  -- The changed events keep their hashes, so startup has nothing to notice.
  have accepted : ∃ reopened, new .standard Sample.auditConfig.rebuilding {}
      Sample.twiceRenamedDir = .ok reopened := by
    have noticed := Sample.twice_written.detected_iff_root
      legible (by simp [Sample.twiceRenamed, Sample.renamed])
    rw [detected_iff] at noticed
    by_contra refused
    have same : Sample.twiceRenamed.map AuditEvent.currentHash =
        Sample.twice.storage.writtenEvents.map AuditEvent.currentHash := by
      simp [Sample.twiceRenamed, Sample.renamed]
    exact noticed.mp refused (by rw [same])
  have length : Sample.twiceRenamed.length = 2 := by
    simpa [Sample.twiceHashes] using congrArg List.length Sample.twiceRenamed_hashes
  have noCollision : NoCollision .standard (Sample.twiceRenamed.map AuditEvent.currentHash)
      Sample.twice.merkleTree.leaves := by
    have free : (auditHashing .standard).CollisionFree
        ((auditHashing .standard).messages Sample.twiceHashes) := by decide +kernel
    rw [Sample.twiceRenamed_hashes, Sample.twice_leaves]
    intro first one second two
    exact free first (by simpa using one) second (by simpa using two)
  have kept : Sample.twiceRenamedDir.checkpoint = Sample.twice.storage.dir.checkpoint :=
    tamperedDir_checkpoint Sample.twice _
  obtain ⟨root, checkpoint, atTip, -⟩ :=
    checkpoint_commits_at_tip live Sample.twice_logged kept read
  obtain ⟨roots, hashes⟩ := atTip length accepted
  refine ⟨root, checkpoint, ?_, accepted, roots, hashes noCollision⟩
  rw [Sample.twiceRenamed_operations.1, Sample.twiceRenamed_operations.2]
  decide

end Hsm
