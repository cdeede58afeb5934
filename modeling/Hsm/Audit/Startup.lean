import Hsm.Audit.Logger

/-! What startup accepts: the stored sequence numbers, and the root at the checkpoint. -/

namespace Hsm

def Consecutive (after : Nat) (events : List AuditEvent) : Prop :=
  events.map AuditEvent.sequence = List.range' (after + 1) events.length

@[simp] theorem Consecutive.nil (after : Nat) : Consecutive after [] := rfl

theorem consecutive_cons {after : Nat} {event : AuditEvent} {rest : List AuditEvent} :
    Consecutive after (event :: rest) ↔
      event.sequence = after + 1 ∧ Consecutive (after + 1) rest := by
  simp [Consecutive, List.range'_succ]

theorem Consecutive.append {events : List AuditEvent} (consecutive : Consecutive 0 events)
    {event : AuditEvent} (next : event.sequence = events.length + 1) :
    Consecutive 0 (events ++ [event]) := by
  simp only [Consecutive, List.map_append, List.length_append, List.length_singleton,
    List.map_cons, List.map_nil, Nat.zero_add] at consecutive ⊢
  rw [consecutive, next, List.range'_1_concat, Nat.add_comm 1]

structure AuditLogger.Sound (prim : AuditPrimitives) (logger : AuditLogger) : Prop where
  chain : logger.hashChain.WellLinked prim
  tree : logger.merkleTree.Built prim
  counted : logger.hashChain.sequence = logger.merkleTree.leaves.length

namespace AuditLogger

variable (prim : AuditPrimitives)

theorem Sound.fresh (config : AuditConfig) (storage : AuditStorage) :
    Sound prim ⟨config, .new, .new, storage⟩ :=
  ⟨.new prim, .new prim, rfl⟩

theorem Sound.append {prim : AuditPrimitives} {logger : AuditLogger} (sound : logger.Sound prim)
    {event : AuditEvent} {hashChain : HashChain} {hash : String}
    (appended : logger.hashChain.append prim event = .ok (hashChain, hash)) (leaf : String)
    (storage : AuditStorage) :
    Sound prim ⟨logger.config, hashChain, logger.merkleTree.update prim leaf, storage⟩ := by
  -- The chain and the tree both grow by one.
  obtain ⟨-, -, made⟩ := HashChain.append_ok appended
  refine ⟨sound.chain.append appended, MerkleTree.update_built prim _ _, ?_⟩
  rw [MerkleTree.update_leaves, List.length_append, ← sound.counted, made]
  rfl

/-- What replaying stored events leaves behind. -/
structure Replayed (prim : AuditPrimitives) (logger : AuditLogger) (events : List AuditEvent)
    (rebuilt : AuditLogger) : Prop where
  sound : rebuilt.Sound prim
  config : rebuilt.config = logger.config
  storage : rebuilt.storage = logger.storage
  sequence : rebuilt.hashChain.sequence = logger.hashChain.sequence + events.length
  leaves : rebuilt.merkleTree.leaves =
    logger.merkleTree.leaves ++ events.map AuditEvent.currentHash

theorem replay_ok_iff {prim : AuditPrimitives} {logger : AuditLogger} (sound : logger.Sound prim)
    (events : List AuditEvent) :
    (∃ rebuilt, logger.replay prim events = .ok rebuilt) ↔
      Consecutive logger.hashChain.sequence events := by
  -- The sequence check of each append is the only one on the way.
  induction events generalizing logger with
  | nil => simp [replay]
  | cons event rest ih =>
    rw [consecutive_cons]
    simp only [replay]
    cases appended : logger.hashChain.append prim event with
    | error e =>
      have mismatch : event.sequence ≠ logger.hashChain.sequence + 1 := by
        intro expected
        simp [HashChain.append, expected] at appended
      simp [mismatch]
    | ok result =>
      obtain ⟨hashChain, hash⟩ := result
      obtain ⟨expected, -, made⟩ := HashChain.append_ok appended
      have later := ih (sound.append appended event.currentHash logger.storage)
      have counted : hashChain.sequence = logger.hashChain.sequence + 1 := by rw [made]
      simp only [expected, true_and]
      rw [← counted]
      exact later

theorem replay_replayed {prim : AuditPrimitives} {logger rebuilt : AuditLogger}
    (sound : logger.Sound prim) {events : List AuditEvent}
    (replayed : logger.replay prim events = .ok rebuilt) :
    Replayed prim logger events rebuilt := by
  -- Each event is appended to the chain, and its stored hash to the tree.
  induction events generalizing logger with
  | nil =>
    cases replayed
    exact ⟨sound, rfl, rfl, rfl, by simp⟩
  | cons event rest ih =>
    simp only [replay] at replayed
    split at replayed
    · cases replayed
    · rename_i hashChain hash appended
      obtain ⟨-, -, made⟩ := HashChain.append_ok appended
      have later := ih (sound.append appended event.currentHash logger.storage) replayed
      refine ⟨later.sound, later.config, later.storage, ?_, ?_⟩
      · rw [later.sequence, made, List.length_cons]
        simp only
        omega
      · rw [later.leaves]
        simp

theorem Sound.verifyIntegrity {prim : AuditPrimitives} {logger : AuditLogger}
    (sound : logger.Sound prim) : logger.verifyIntegrity prim = .ok () := by
  simp [AuditLogger.verifyIntegrity, sound.chain.verifyAll]

def starting (config : AuditConfig) (dir : LogDir) : AuditLogger where
  config := config
  hashChain := .new
  merkleTree := .new
  storage := {
    config := config.storage
    dir := { dir with current := some (dir.current.getD []) }
    fileOpen := true
    buffer := []
    currentSize := LogFile.size (dir.current.getD []) }

theorem new_healthy (config : AuditConfig) (dir : LogDir) :
    new prim config {} dir =
      if config.rebuildMerkleOnStart then (starting config dir).rebuildFromStorage prim {}
      else .ok (starting config dir) := rfl

def PassesCheckpoint (key : Option Bytes) (hashes : List String) :
    Option CheckpointFile → Prop
  | none | some .blank => True
  | some (.malformed _) => False
  | some (.checkpoint checkpoint) =>
    checkpoint.verifyAgainstLive prim hashes.length (merkleRoot prim hashes) key = .ok ()

/-- Startup accepts events numbered from one whose stored hashes pass the checkpoint. -/
theorem new_ok_iff {config : AuditConfig} (rebuilds : config.rebuildMerkleOnStart = true)
    {dir : LogDir} {events : List AuditEvent}
    (read : LogFile.events prim (dir.current.getD []) = .ok events) :
    (∃ logger, new prim config {} dir = .ok logger) ↔
      Consecutive 0 events ∧
        PassesCheckpoint prim config.checkpointKey (events.map AuditEvent.currentHash)
          dir.checkpoint := by
  have readable : (starting config dir).storage.readCurrentEvents prim {} = .ok events := read
  have fresh : (starting config dir).Sound prim := .fresh prim config _
  have replays := replay_ok_iff fresh events
  rw [new_healthy, if_pos rebuilds, rebuildFromStorage, readable]
  dsimp only
  cases replayed : (starting config dir).replay prim events with
  | error e =>
    -- The first event out of order stops the replay.
    rw [replayed] at replays
    have disordered : ¬ Consecutive 0 events := by
      intro consecutive
      obtain ⟨rebuilt, impossible⟩ := replays.mpr consecutive
      cases impossible
    simp [disordered]
  | ok rebuilt =>
    have consecutive : Consecutive 0 events := replays.mp ⟨rebuilt, replayed⟩
    have made := replay_replayed fresh replayed
    have leaves : rebuilt.merkleTree.leaves = events.map AuditEvent.currentHash := made.leaves
    have sequence : rebuilt.hashChain.sequence = (events.map AuditEvent.currentHash).length := by
      rw [made.sequence, List.length_map]
      exact Nat.zero_add _
    have root : rebuilt.merkleTree.getRoot.toOption =
        merkleRoot prim (events.map AuditEvent.currentHash) := by
      rw [made.sound.tree.getRoot_toOption, leaves]
    have key : rebuilt.config.checkpointKey = config.checkpointKey := by rw [made.config]; rfl
    have checkpoint : rebuilt.storage.dir.checkpoint = dir.checkpoint := by rw [made.storage]; rfl
    -- The chain and the tree are up to date, so the checkpoint file decides.
    simp only [consecutive, true_and, AuditStorage.readCheckpoint, checkpoint, sequence, root, key]
    cases dir.checkpoint with
    | none => simp [PassesCheckpoint]
    | some contents =>
      cases contents with
      | blank => simp [PassesCheckpoint]
      | malformed error => simp [PassesCheckpoint]
      | checkpoint checkpoint =>
        simp only [PassesCheckpoint]
        cases checkpoint.verifyAgainstLive prim _ _ _ with
        | error e => simp
        | ok => simp

/-- A startup that rebuilds has read the log. -/
theorem new_reads {prim : AuditPrimitives} {config : AuditConfig}
    (rebuilds : config.rebuildMerkleOnStart = true) {dir : LogDir} {logger : AuditLogger}
    (opened : new prim config {} dir = .ok logger) :
    ∃ events, LogFile.events prim (dir.current.getD []) = .ok events := by
  rw [new_healthy, if_pos rebuilds, rebuildFromStorage] at opened
  cases read : (starting config dir).storage.readCurrentEvents prim {} with
  | error failure =>
    rw [read] at opened
    cases opened
  | ok events => exact ⟨events, read⟩

theorem new_replay {prim : AuditPrimitives} {config : AuditConfig}
    (rebuilds : config.rebuildMerkleOnStart = true) {dir : LogDir} {events : List AuditEvent}
    (read : LogFile.events prim (dir.current.getD []) = .ok events) {logger : AuditLogger}
    (opened : new prim config {} dir = .ok logger) :
    (starting config dir).replay prim events = .ok logger := by
  have readable : (starting config dir).storage.readCurrentEvents prim {} = .ok events := read
  rw [new_healthy, if_pos rebuilds, rebuildFromStorage, readable] at opened
  dsimp only at opened
  split at opened
  · cases opened
  · rename_i rebuilt replayed
    -- The checkpoint is only checked: it changes nothing in the rebuilt logger.
    repeat' split at opened
    all_goals cases opened
    all_goals exact replayed

theorem new_replayed {prim : AuditPrimitives} {config : AuditConfig}
    (rebuilds : config.rebuildMerkleOnStart = true) {dir : LogDir} {events : List AuditEvent}
    (read : LogFile.events prim (dir.current.getD []) = .ok events) {logger : AuditLogger}
    (opened : new prim config {} dir = .ok logger) :
    Replayed prim (starting config dir) events logger :=
  replay_replayed (.fresh prim config _) (new_replay rebuilds read opened)

theorem new_sound {prim : AuditPrimitives} {config : AuditConfig} {io : AuditIo} {dir : LogDir}
    {logger : AuditLogger} (opened : new prim config io dir = .ok logger) : logger.Sound prim := by
  simp only [new] at opened
  split at opened
  · cases opened
  · rename_i storage _
    have fresh : Sound prim ⟨config, .new, .new, storage⟩ := .fresh prim config storage
    split at opened
    · -- The rebuilt logger is the replayed one, if the checkpoint lets it through.
      simp only [rebuildFromStorage] at opened
      split at opened
      · cases opened
      · split at opened
        · cases opened
        · rename_i rebuilt replayed
          have sound := (replay_replayed fresh replayed).sound
          split at opened
          · cases opened
          · cases opened
            exact sound
          · split at opened
            · cases opened
            · cases opened
              exact sound
    · cases opened
      exact fresh

end AuditLogger

end Hsm
