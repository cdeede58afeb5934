import Hsm.Audit.Startup

/-! What logging an event does to the log files, the chain, the tree and the checkpoint. -/

namespace Hsm

def AuditStorage.lines (storage : AuditStorage) : LogFile :=
  storage.dir.current.getD [] ++ storage.buffer

def LogLine.event? (line : LogLine) : Option AuditEvent :=
  match line.text with
  | .event event => some event
  | _ => none

def AuditStorage.writtenEvents (storage : AuditStorage) : List AuditEvent :=
  storage.lines.filterMap LogLine.event?

@[simp] theorem LogFile.filterMap_event? (prim : AuditPrimitives) (events : List AuditEvent) :
    (events.map (LogLine.ofEvent prim)).filterMap LogLine.event? = events := by
  rw [List.filterMap_map]
  exact List.filterMap_some

theorem LogFile.events_cons (prim : AuditPrimitives) (event : AuditEvent) (rest : LogFile) :
    LogFile.events prim (LogLine.ofEvent prim event :: rest) = (do
      let event ← (event.reread prim).mapError .serialization
      return event :: (← LogFile.events prim rest)) := by
  simp [LogFile.events, LogLine.ofEvent]

/-- Events that read back as they were written are what the log holds. -/
theorem LogFile.events_ofEvent {prim : AuditPrimitives} {events : List AuditEvent}
    (legible : ∀ event ∈ events, event.reread prim = .ok event) :
    LogFile.events prim (events.map (LogLine.ofEvent prim)) = .ok events := by
  induction events with
  | nil => rfl
  | cons event rest ih =>
    rw [List.map_cons, events_cons, legible event (by simp),
      ih fun other member => legible other (by simp [member])]
    rfl

/-- Whatever becomes of their metadata, events keep their numbers and hashes. -/
theorem LogFile.events_ok {prim : AuditPrimitives} {events read : List AuditEvent}
    (isRead : LogFile.events prim (events.map (LogLine.ofEvent prim)) = .ok read) :
    read.map AuditEvent.sequence = events.map AuditEvent.sequence ∧
      read.map AuditEvent.currentHash = events.map AuditEvent.currentHash := by
  induction events generalizing read with
  | nil =>
    cases isRead
    exact ⟨rfl, rfl⟩
  | cons event rest ih =>
    rw [List.map_cons, events_cons] at isRead
    cases first : event.reread prim with
    | error failure =>
      rw [first] at isRead
      cases isRead
    | ok value =>
      cases others : LogFile.events prim (rest.map (LogLine.ofEvent prim)) with
      | error failure =>
        rw [first, others] at isRead
        cases isRead
      | ok values =>
        rw [first, others] at isRead
        cases isRead
        obtain ⟨sequence, hash⟩ := AuditEvent.reread_ok prim first
        obtain ⟨sequences, hashes⟩ := ih others
        simp only [List.map_cons, sequence, hash, sequences, hashes, and_self]

/-- A written line is the only change to the files. -/
structure AuditStorage.Appended (prim : AuditPrimitives) (before : AuditStorage)
    (event : AuditEvent) (after : AuditStorage) : Prop where
  lines : after.lines = before.lines ++ [LogLine.ofEvent prim event]
  checkpoint : after.dir.checkpoint = before.dir.checkpoint
  fileOpen : after.fileOpen = true

theorem AuditStorage.appendLine_ok {prim : AuditPrimitives} {before after : AuditStorage}
    {io : AuditIo} {event : AuditEvent}
    (written : before.appendLine prim io event = (after, .ok ())) :
    before.Appended prim event after := by
  simp only [appendLine] at written
  split at written
  · rename_i isOpen
    split at written
    · cases written
    · split at written
      · -- Synced writes move the whole buffer to the file.
        split at written
        · cases written
        · cases written
          exact ⟨by simp [lines, flushBuffer], rfl, isOpen⟩
      · -- Without syncing, the line stays with the buffered writer.
        cases written
        exact ⟨by simp [lines], rfl, isOpen⟩
  · cases written

namespace AuditLogger

/-- What a successful log call has done. -/
structure Logged (prim : AuditPrimitives) (logger : AuditLogger) (io : AuditIo)
    (event : AuditEvent) (root : String) (next : AuditLogger) : Prop where
  sequence : event.sequence = logger.hashChain.sequence + 1
  written : ∃ storage, logger.storage.writeEvent prim io event = (storage, .ok ()) ∧
    next.storage = { storage with dir := { storage.dir with
      checkpoint := some (.checkpoint
        (Checkpoint.new prim event.sequence root logger.config.checkpointKey)) } }
  appended : logger.hashChain.append prim event = .ok (next.hashChain, event.currentHash)
  tree : next.merkleTree = logger.merkleTree.update prim event.currentHash
  root : next.merkleTree.root = some root
  config : next.config = logger.config

variable {prim : AuditPrimitives}

theorem append_hash {chain next : HashChain} {event : AuditEvent} {hash : String}
    (link : event.prevHash = chain.lastHash) (hashed : event.currentHash = event.computeHash prim)
    (appended : chain.append prim event = .ok (next, hash)) : hash = event.currentHash := by
  -- The append writes the previous hash that is already there, and computes the same hash again.
  obtain ⟨-, computed, -⟩ := HashChain.append_ok appended
  rw [computed, ← link, hashed]
  rfl

variable {logger : AuditLogger}

theorem log_ok {next : AuditLogger} {io : AuditIo} {now : DateTime} {builder : AuditEventBuilder}
    {sequence : Nat} (logged : logger.log prim io now builder = (next, .ok sequence)) :
    ∃ event root, Logged prim logger io event root next ∧ event.sequence = sequence := by
  simp only [log] at logged
  split at logged
  · cases logged
  · split at logged
    · cases logged
    · rename_i event built
      obtain ⟨numbered, link, hashed⟩ := AuditEventBuilder.build_ok built
      have number : event.sequence = logger.hashChain.sequence + 1 :=
        (Option.some.inj numbered).symm
      split at logged
      · cases logged
      · rename_i storage written
        split at logged
        · cases logged
        · rename_i hashChain hash appended
          obtain rfl := append_hash link hashed appended
          obtain ⟨root, rooted⟩ := logger.merkleTree.update_root prim event.currentHash
          simp only [MerkleTree.getRoot, rooted] at logged
          split at logged
          · cases logged
          · rename_i checkpointed saved
            cases logged
            refine ⟨event, root, ⟨number, ⟨storage, written, ?_⟩, appended, rfl, rooted, rfl⟩, number⟩
            -- The checkpoint file is the only file that changes after the event is written.
            simp only [AuditStorage.writeCheckpoint] at saved
            split at saved
            · cases saved
            · cases saved
              rw [number]

theorem log_sound (sound : logger.Sound prim) (io : AuditIo) (now : DateTime)
    (builder : AuditEventBuilder) :
    (logger.log prim io now builder).1.Sound prim := by
  -- Before the append only the storage changes, and after it only the checkpoint file.
  have stored : ∀ storage, Sound prim { logger with storage } :=
    fun _ => ⟨sound.chain, sound.tree, sound.counted⟩
  simp only [log]
  split
  · exact sound
  · split
    · exact sound
    · split
      · exact stored _
      · split
        · exact stored _
        · rename_i hashChain hash appended
          split
          · exact sound.append appended hash _
          · split
            · exact sound.append appended hash _
            · exact sound.append appended hash _

/-- The loggers of any directory, after any calls. -/
inductive Live (prim : AuditPrimitives) : AuditLogger → Prop where
  | opened {config : AuditConfig} {io : AuditIo} {dir : LogDir} {logger : AuditLogger}
      (opened : new prim config io dir = .ok logger) : Live prim logger
  | logged {logger : AuditLogger} (live : Live prim logger) (io : AuditIo) (now : DateTime)
      (builder : AuditEventBuilder) : Live prim (logger.log prim io now builder).1
  | flushed {logger : AuditLogger} (live : Live prim logger) (io : AuditIo) :
      Live prim (logger.flush io).1
  | rotated {logger : AuditLogger} (live : Live prim logger) (io : AuditIo) :
      Live prim (logger.rotate io).1

theorem Live.sound (live : Live prim logger) :
    logger.Sound prim := by
  induction live with
  | opened opened => exact new_sound opened
  | logged live io now builder ih => exact log_sound ih io now builder
  | flushed live io ih =>
    -- Flushing and rotating touch the storage only.
    simp only [flush]
    split <;> exact ⟨ih.chain, ih.tree, ih.counted⟩
  | rotated live io ih =>
    simp only [rotate]
    split <;> exact ⟨ih.chain, ih.tree, ih.counted⟩

end AuditLogger

end Hsm
