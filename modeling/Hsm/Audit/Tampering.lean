import Hsm.Audit.Logging

/-! Which changes to a stored log the next startup notices. -/

namespace Hsm

def AuditConfig.rebuilding (config : AuditConfig) : AuditConfig :=
  { config with rebuildMerkleOnStart := true }

@[simp] theorem AuditConfig.rebuilding_checkpointKey (config : AuditConfig) :
    config.rebuilding.checkpointKey = config.checkpointKey := rfl

namespace AuditLogger

/-- Startup fails, or the opened logger fails its check. -/
def Detected (prim : AuditPrimitives) (config : AuditConfig) (dir : LogDir) : Prop :=
  match new prim config {} dir with
  | .error _ => True
  | .ok logger => ∃ e, logger.verifyIntegrity prim = .error e

/-- Startup alone decides, as the check never fails after it. -/
theorem detected_iff (prim : AuditPrimitives) (config : AuditConfig) (dir : LogDir) :
    Detected prim config dir ↔ ¬ ∃ logger, new prim config {} dir = .ok logger := by
  unfold Detected
  cases opened : new prim config {} dir with
  | error e => simp
  | ok logger =>
    have passes := (new_sound opened).verifyIntegrity
    simp [passes]

inductive Written (prim : AuditPrimitives) (config : AuditConfig) : AuditLogger → Prop where
  | start {logger : AuditLogger} (opened : new prim config {} .empty = .ok logger) :
      Written prim config logger
  | log {logger next : AuditLogger} (before : Written prim config logger) {io : AuditIo}
      {now : DateTime} {builder : AuditEventBuilder} {sequence : Nat}
      (small : logger.storage.currentSize < logger.storage.config.maxFileSize)
      (logged : logger.log prim io now builder = (next, .ok sequence)) : Written prim config next
  | restart {logger next : AuditLogger} (before : Written prim config logger)
      (rebuilds : config.rebuildMerkleOnStart = true)
      (opened : new prim config {} logger.storage.close = .ok next) : Written prim config next

def tipCheckpoint (prim : AuditPrimitives) (key : Option Bytes) (hashes : List String) :
    Option CheckpointFile :=
  (merkleRoot prim hashes).map fun root =>
    .checkpoint (Checkpoint.new prim hashes.length root key)

/-- Files, tree and checkpoint agree on the events. -/
structure InStep (prim : AuditPrimitives) (config : AuditConfig) (events : List AuditEvent)
    (logger : AuditLogger) : Prop where
  configured : logger.config = config
  sound : logger.Sound prim
  fileOpen : logger.storage.fileOpen = true
  lines : logger.storage.lines = events.map (LogLine.ofEvent prim)
  leaves : logger.merkleTree.leaves = events.map AuditEvent.currentHash
  consecutive : Consecutive 0 events
  checkpoint : logger.storage.dir.checkpoint =
    tipCheckpoint prim config.checkpointKey (events.map AuditEvent.currentHash)

namespace InStep

variable {prim : AuditPrimitives} {config : AuditConfig} {events : List AuditEvent}
  {logger : AuditLogger}

theorem writtenEvents (inStep : InStep prim config events logger) :
    logger.storage.writtenEvents = events := by
  rw [AuditStorage.writtenEvents, inStep.lines, LogFile.filterMap_event?]

theorem opened {dir : LogDir} (rebuilds : config.rebuildMerkleOnStart = true)
    (lines : dir.current.getD [] = events.map (LogLine.ofEvent prim))
    (checkpoint : dir.checkpoint =
      tipCheckpoint prim config.checkpointKey (events.map AuditEvent.currentHash))
    (opened : new prim config {} dir = .ok logger) : InStep prim config events logger := by
  obtain ⟨found, read⟩ := new_reads rebuilds opened
  have made := new_replayed rebuilds read opened
  have accepted := (new_ok_iff prim rebuilds read).mp ⟨logger, opened⟩
  -- What is read may differ from what was written, but not in its numbers and hashes.
  rw [lines] at read
  obtain ⟨sequences, hashes⟩ := LogFile.events_ok read
  have length : found.length = events.length := by simpa using congrArg List.length sequences
  exact {
    configured := made.config
    sound := made.sound
    fileOpen := by rw [made.storage]; rfl
    lines := by
      rw [made.storage, ← lines]
      exact List.append_nil _
    leaves := made.leaves.trans hashes
    consecutive := by
      rw [Consecutive, ← sequences, ← length]
      exact accepted.1
    checkpoint := by
      rw [made.storage]
      exact checkpoint }

theorem start (opened : new prim config {} .empty = .ok logger) :
    InStep prim config [] logger := by
  by_cases rebuilds : config.rebuildMerkleOnStart = true
  · exact InStep.opened rebuilds rfl rfl opened
  · -- Without a rebuild, an empty log starts like an empty directory.
    rw [new_healthy, if_neg rebuilds] at opened
    cases opened
    exact ⟨rfl, .fresh prim config _, rfl, rfl, rfl, .nil 0, rfl⟩

theorem log (inStep : InStep prim config events logger) {next : AuditLogger} {io : AuditIo}
    {now : DateTime} {builder : AuditEventBuilder} {sequence : Nat}
    (small : logger.storage.currentSize < logger.storage.config.maxFileSize)
    (logged : logger.log prim io now builder = (next, .ok sequence)) :
    ∃ event, InStep prim config (events ++ [event]) next := by
  obtain ⟨event, root, done, -⟩ := log_ok logged
  obtain ⟨storage, written, stored⟩ := done.written
  -- The file is small, so the event's line goes to the end of it.
  have notFull : ¬ logger.storage.currentSize ≥ logger.storage.config.maxFileSize := by omega
  rw [AuditStorage.writeEvent, if_neg notFull] at written
  have appended := AuditStorage.appendLine_ok written
  have leaves : next.merkleTree.leaves = (events ++ [event]).map AuditEvent.currentHash := by
    rw [done.tree, MerkleTree.update_leaves, inStep.leaves, List.map_append]
    rfl
  have number : event.sequence = events.length + 1 := by
    rw [done.sequence, inStep.sound.counted, inStep.leaves, List.length_map]
  have sound : next.Sound prim := by
    have result := log_sound inStep.sound io now builder
    rw [logged] at result
    exact result
  have committed : merkleRoot prim ((events ++ [event]).map AuditEvent.currentHash) = some root := by
    rw [← leaves, ← sound.tree, done.root]
  refine ⟨event, ?_, sound, ?_, ?_, leaves, inStep.consecutive.append number, ?_⟩
  · rw [done.config, inStep.configured]
  · rw [stored]
    exact appended.fileOpen
  · rw [stored, List.map_append, ← inStep.lines]
    exact appended.lines
  · -- The new checkpoint commits to the new event and all before it.
    rw [stored, tipCheckpoint, committed, ← inStep.configured]
    simp [number]

theorem restart (inStep : InStep prim config events logger) {next : AuditLogger}
    (rebuilds : config.rebuildMerkleOnStart = true)
    (opened : new prim config {} logger.storage.close = .ok next) :
    InStep prim config events next := by
  -- The buffered writer has flushed itself, so the file holds all lines.
  have closed : logger.storage.close = logger.storage.flushBuffer.dir := by
    rw [AuditStorage.close, if_pos inStep.fileOpen]
  refine InStep.opened rebuilds ?_ ?_ opened
  · rw [closed, ← inStep.lines]
    rfl
  · rw [closed, ← inStep.checkpoint]
    rfl

end InStep

theorem Written.inStep {prim : AuditPrimitives} {config : AuditConfig} {logger : AuditLogger}
    (written : Written prim config logger) :
    InStep prim config logger.storage.writtenEvents logger := by
  have found : ∃ events, InStep prim config events logger := by
    induction written with
    | start opened => exact ⟨[], .start opened⟩
    | log before small logged ih =>
      obtain ⟨events, inStep⟩ := ih
      obtain ⟨event, next⟩ := inStep.log small logged
      exact ⟨events ++ [event], next⟩
    | restart before rebuilds opened ih =>
      obtain ⟨events, inStep⟩ := ih
      exact ⟨events, inStep.restart rebuilds opened⟩
  obtain ⟨events, inStep⟩ := found
  rw [inStep.writtenEvents]
  exact inStep

/-- A log of the committed length passes exactly with the committed root. -/
theorem passes_tipCheckpoint_iff (prim : AuditPrimitives) (key : Option Bytes)
    {hashes others : List String} (length : hashes.length = others.length) :
    PassesCheckpoint prim key hashes (tipCheckpoint prim key others) ↔
      merkleRoot prim hashes = merkleRoot prim others := by
  rcases Nat.eq_zero_or_pos others.length with empty | nonempty
  · -- Without events there is neither a checkpoint nor a root.
    have noHashes : hashes = [] := List.length_eq_zero_iff.mp (by omega)
    have noOthers : others = [] := List.length_eq_zero_iff.mp empty
    subst noHashes noOthers
    exact ⟨fun _ => rfl, fun _ => trivial⟩
  · obtain ⟨root, live⟩ := Option.isSome_iff_exists.mp
      (merkleRoot_isSome prim (length.symm ▸ nonempty : 0 < hashes.length))
    obtain ⟨committed, tip⟩ := Option.isSome_iff_exists.mp (merkleRoot_isSome prim nonempty)
    -- The tip is exactly at the checkpoint, so the roots are compared.
    simp only [tipCheckpoint, tip, Option.map_some, PassesCheckpoint, live]
    rw [Checkpoint.verifyAgainstLive_new]
    simp [length]

def tamperedDir (logger : AuditLogger) (file : LogFile) : LogDir :=
  { logger.storage.close with current := some file }

@[simp] theorem tamperedDir_checkpoint (logger : AuditLogger) (file : LogFile) :
    (logger.tamperedDir file).checkpoint = logger.storage.dir.checkpoint := by
  simp only [tamperedDir, AuditStorage.close]
  split <;> rfl

theorem tamperedDir_events {prim : AuditPrimitives} (logger : AuditLogger) {file : LogFile}
    {events : List AuditEvent} (read : LogFile.events prim file = .ok events) :
    LogFile.events prim ((logger.tamperedDir file).current.getD []) = .ok events := read

/-- A replaced log is noticed exactly if its root differs. -/
theorem Written.detected_iff_root {prim : AuditPrimitives} {config : AuditConfig}
    {logger : AuditLogger} (written : Written prim config logger) {file : LogFile}
    {tampered : List AuditEvent} (read : LogFile.events prim file = .ok tampered)
    (sequences : tampered.map AuditEvent.sequence =
      logger.storage.writtenEvents.map AuditEvent.sequence) :
    Detected prim config.rebuilding (logger.tamperedDir file) ↔
      merkleRoot prim (tampered.map AuditEvent.currentHash) ≠
        merkleRoot prim (logger.storage.writtenEvents.map AuditEvent.currentHash) := by
  have inStep := written.inStep
  have length : tampered.length = logger.storage.writtenEvents.length := by
    simpa using congrArg List.length sequences
  -- The numbering is the written one, so only the checkpoint can object.
  have consecutive : Consecutive 0 tampered := by
    rw [Consecutive, sequences, length]
    exact inStep.consecutive
  have checkpoint : (logger.tamperedDir file).checkpoint = tipCheckpoint prim config.checkpointKey
      (logger.storage.writtenEvents.map AuditEvent.currentHash) := by
    rw [tamperedDir_checkpoint, inStep.checkpoint]
  rw [detected_iff, new_ok_iff prim rfl (logger.tamperedDir_events read), checkpoint,
    AuditConfig.rebuilding_checkpointKey, passes_tipCheckpoint_iff prim _ (by simp [length])]
  simp [consecutive]

/-- Startup notices a log changed in place exactly if a stored hash was changed. -/
theorem tampering_detected_iff {prim : AuditPrimitives} {config : AuditConfig}
    {logger : AuditLogger} (written : Written prim config logger) (file : LogFile)
    (tampered : List AuditEvent) (read : LogFile.events prim file = .ok tampered)
    (sequences : tampered.map AuditEvent.sequence =
      logger.storage.writtenEvents.map AuditEvent.sequence)
    (free : NoCollision prim (tampered.map AuditEvent.currentHash)
      (logger.storage.writtenEvents.map AuditEvent.currentHash)) :
    Detected prim config.rebuilding (logger.tamperedDir file) ↔
      tampered.map AuditEvent.currentHash ≠
        logger.storage.writtenEvents.map AuditEvent.currentHash := by
  have length : (tampered.map AuditEvent.currentHash).length =
      (logger.storage.writtenEvents.map AuditEvent.currentHash).length := by
    simpa using congrArg List.length sequences
  rw [written.detected_iff_root read sequences]
  -- Without collisions, equal roots and equal hashes are the same thing.
  constructor
  · intro roots same
    exact roots (by rw [same])
  · intro hashes same
    exact hashes (merkleRoot_inj length free same)

end AuditLogger

namespace Sample

def auditConfig : AuditConfig := { checkpointKey := some (asBytes "checkpoint key") }

def signing : AuditEventBuilder where
  eventType := some .sign
  operation := some "sign"
  «namespace» := some "default"
  clientId := some "client"
  result := some .success

def signed : AuditLogger :=
  ((AuditLogger.starting auditConfig .empty).log .standard {} ⟨1735689600, 0⟩ signing).1

def rewritten (change : AuditEvent → AuditEvent) : List AuditEvent :=
  signed.storage.writtenEvents.map change

theorem signing_opened : AuditLogger.new .standard auditConfig {} .empty =
    .ok (AuditLogger.starting auditConfig .empty) := rfl

theorem signed_evaluated :
    ((AuditLogger.starting auditConfig .empty).log .standard {} ⟨1735689600, 0⟩ signing).2 =
        .ok 1 ∧
      signed.storage.writtenEvents.map (fun event =>
          (event.operation, event.currentHash, event.metadata.isNone)) =
        [("sign", "b4395831693b189eb75ebb731f10e4b0691b48cfe6bb262819df3ee7418cc8eb", true)] := by
  decide +kernel

theorem signing_logged : (AuditLogger.starting auditConfig .empty).log .standard {}
    ⟨1735689600, 0⟩ signing = (signed, .ok 1) := by
  rw [← signed_evaluated.1]
  rfl

theorem signed_written : AuditLogger.Written .standard auditConfig signed :=
  .log (.start signing_opened) (by decide) signing_logged

theorem signed_hashes : signed.storage.writtenEvents.map AuditEvent.currentHash =
    ["b4395831693b189eb75ebb731f10e4b0691b48cfe6bb262819df3ee7418cc8eb"] := by
  simpa using congrArg (List.map fun found => found.2.1) signed_evaluated.2

theorem signed_operations : signed.storage.writtenEvents.map AuditEvent.operation = ["sign"] := by
  simpa using congrArg (List.map Prod.fst) signed_evaluated.2

/-- Changes that leave the metadata leave an event that reads back as it is written. -/
theorem rewritten_legible (change : AuditEvent → AuditEvent)
    (kept : ∀ event, (change event).metadata = event.metadata) :
    ∀ event ∈ rewritten change, event.reread .standard = .ok event := by
  have bare : signed.storage.writtenEvents.map (fun event => event.metadata.isNone) = [true] := by
    simpa using congrArg (List.map fun found => found.2.2) signed_evaluated.2
  intro event member
  obtain ⟨before, written, rfl⟩ := List.mem_map.mp member
  have none : before.metadata.isNone ∈ [true] := bare ▸ List.mem_map_of_mem written
  apply AuditEvent.reread_none
  rw [kept]
  simpa using none

def rewrittenFile (change : AuditEvent → AuditEvent) : LogFile :=
  (rewritten change).map (LogLine.ofEvent .standard)

def renamed (event : AuditEvent) : AuditEvent := { event with operation := "verify" }

def rehashed (event : AuditEvent) : AuditEvent := { event with currentHash := "" }

theorem rewritten_rehashed : (rewritten rehashed).map AuditEvent.currentHash = [""] := by
  have length : signed.storage.writtenEvents.length = 1 := by
    simpa using congrArg List.length signed_hashes
  obtain ⟨event, single⟩ := List.length_eq_one_iff.mp length
  simp [rewritten, rehashed, single]

end Sample

open AuditLogger

theorem renamed_event_unnoticed :
    (Sample.rewritten Sample.renamed).map AuditEvent.sequence =
        Sample.signed.storage.writtenEvents.map AuditEvent.sequence ∧
      (Sample.rewritten Sample.renamed).map AuditEvent.operation ≠
        Sample.signed.storage.writtenEvents.map AuditEvent.operation ∧
      ¬ Detected .standard Sample.auditConfig.rebuilding
        (Sample.signed.tamperedDir (Sample.rewrittenFile Sample.renamed)) := by
  -- The change touches neither the numbering nor the stored hashes.
  have sequences : (Sample.rewritten Sample.renamed).map AuditEvent.sequence =
      Sample.signed.storage.writtenEvents.map AuditEvent.sequence := by
    simp [Sample.rewritten, Sample.renamed]
  have hashes : (Sample.rewritten Sample.renamed).map AuditEvent.currentHash =
      Sample.signed.storage.writtenEvents.map AuditEvent.currentHash := by
    simp [Sample.rewritten, Sample.renamed]
  have operations : (Sample.rewritten Sample.renamed).map AuditEvent.operation ≠
      Sample.signed.storage.writtenEvents.map AuditEvent.operation := by
    have length : Sample.signed.storage.writtenEvents.length = 1 := by
      simpa using congrArg List.length Sample.signed_operations
    obtain ⟨event, single⟩ := List.length_eq_one_iff.mp length
    rw [Sample.signed_operations]
    simp [Sample.rewritten, Sample.renamed, single]
  refine ⟨sequences, operations, ?_⟩
  have noticed := Sample.signed_written.detected_iff_root
    (LogFile.events_ofEvent (Sample.rewritten_legible Sample.renamed fun _ => rfl)) sequences
  rw [Sample.rewrittenFile, noticed, hashes]
  exact fun differ => differ rfl

theorem tampering_detected_iff_rehashed :
    (Sample.rewritten Sample.rehashed).map AuditEvent.currentHash ≠
        Sample.signed.storage.writtenEvents.map AuditEvent.currentHash ∧
      Detected .standard Sample.auditConfig.rebuilding
        (Sample.signed.tamperedDir (Sample.rewrittenFile Sample.rehashed)) := by
  have changed : (Sample.rewritten Sample.rehashed).map AuditEvent.currentHash ≠
      Sample.signed.storage.writtenEvents.map AuditEvent.currentHash := by
    rw [Sample.rewritten_rehashed, Sample.signed_hashes]
    decide
  have noCollision : NoCollision .standard
      ((Sample.rewritten Sample.rehashed).map AuditEvent.currentHash)
      (Sample.signed.storage.writtenEvents.map AuditEvent.currentHash) := by
    rw [Sample.rewritten_rehashed, Sample.signed_hashes]
    decide +kernel
  have read : LogFile.events .standard (Sample.rewrittenFile Sample.rehashed) =
      .ok (Sample.rewritten Sample.rehashed) :=
    LogFile.events_ofEvent (Sample.rewritten_legible Sample.rehashed fun _ => rfl)
  have sequences : (Sample.rewritten Sample.rehashed).map AuditEvent.sequence =
      Sample.signed.storage.writtenEvents.map AuditEvent.sequence := by
    simp [Sample.rewritten, Sample.rehashed]
  have noticed := tampering_detected_iff Sample.signed_written _ _ read sequences noCollision
  refine ⟨changed, ?_⟩
  rw [noticed]
  exact changed

end Hsm
