import Hsm.Audit.HashChain
import Hsm.Audit.MerkleTree
import Hsm.Audit.Storage

/-! The audit logger: startup from stored events, and durable logging with checkpoints. -/

namespace Hsm

inductive AuditError where
  | hashChain (error : HashChainError)
  | storage (error : StorageError)
  | eventBuild (text : String)
  | disabled
  | checkpoint (error : CheckpointError)
  deriving DecidableEq, Repr

structure AuditConfig where
  storage : StorageConfig := {}
  enabled : Bool := true
  rebuildMerkleOnStart : Bool := true
  checkpointKey : Option Bytes := none

/-- Hash chain, Merkle tree and storage together. -/
structure AuditLogger where
  config : AuditConfig
  hashChain : HashChain
  merkleTree : MerkleTree
  storage : AuditStorage

namespace AuditLogger

def replay (prim : AuditPrimitives) (logger : AuditLogger) :
    List AuditEvent → Except AuditError AuditLogger
  | [] => .ok logger
  | event :: rest =>
    match logger.hashChain.append prim event with
    | .error e => .error (.hashChain e)
    | .ok (hashChain, _) =>
      -- The tree takes the hash as stored, not the one the chain has just computed.
      replay prim { logger with
        hashChain
        merkleTree := logger.merkleTree.update prim event.currentHash } rest

def rebuildFromStorage (prim : AuditPrimitives) (logger : AuditLogger) (io : AuditIo) :
    Except AuditError AuditLogger :=
  match logger.storage.readCurrentEvents prim io with
  | .error e => .error (.storage e)
  | .ok events =>
    match logger.replay prim events with
    | .error e => .error e
    | .ok rebuilt =>
      match rebuilt.storage.readCheckpoint io with
      | .error e => .error (.storage e)
      | .ok none => .ok rebuilt
      | .ok (some checkpoint) =>
        match checkpoint.verifyAgainstLive prim rebuilt.hashChain.sequence
            rebuilt.merkleTree.getRoot.toOption rebuilt.config.checkpointKey with
        | .error e => .error (.checkpoint e)
        | .ok () => .ok rebuilt

def new (prim : AuditPrimitives) (config : AuditConfig) (io : AuditIo) (dir : LogDir) :
    Except AuditError AuditLogger :=
  match AuditStorage.new config.storage io dir with
  | .error e => .error (.storage e)
  | .ok storage =>
    let logger : AuditLogger := ⟨config, .new, .new, storage⟩
    if config.rebuildMerkleOnStart then logger.rebuildFromStorage prim io else .ok logger

def log (prim : AuditPrimitives) (logger : AuditLogger) (io : AuditIo) (now : DateTime)
    (builder : AuditEventBuilder) : AuditLogger × Except AuditError Nat :=
  if logger.config.enabled = false then (logger, .error .disabled)
  else
    let sequence := logger.hashChain.sequence + 1
    let complete := { builder with
      sequence := some sequence
      prevHash := some logger.hashChain.lastHash
      timestamp := some now }
    match complete.build prim now with
    | .error text => (logger, .error (.eventBuild text))
    | .ok event =>
      -- Durability first: persist to storage before advancing any state in memory.
      match logger.storage.writeEvent prim io event with
      | (storage, .error e) => ({ logger with storage }, .error (.storage e))
      | (storage, .ok ()) =>
        match logger.hashChain.append prim event with
        | .error e => ({ logger with storage }, .error (.hashChain e))
        | .ok (hashChain, hash) =>
          let merkleTree := logger.merkleTree.update prim hash
          match merkleTree.getRoot with
          | .error _ => (⟨logger.config, hashChain, merkleTree, storage⟩, .ok sequence)
          | .ok root =>
            let checkpoint := Checkpoint.new prim sequence root logger.config.checkpointKey
            match storage.writeCheckpoint io checkpoint with
            | (storage, .error e) =>
              (⟨logger.config, hashChain, merkleTree, storage⟩, .error (.storage e))
            | (storage, .ok ()) =>
              (⟨logger.config, hashChain, merkleTree, storage⟩, .ok sequence)

def verifyIntegrity (prim : AuditPrimitives) (logger : AuditLogger) : Except AuditError Unit :=
  match logger.hashChain.verifyAll prim with
  | .error e => .error (.hashChain e)
  | .ok () => .ok ()

def flush (logger : AuditLogger) (io : AuditIo) : AuditLogger × Except AuditError Unit :=
  match logger.storage.flush io with
  | (storage, .error e) => ({ logger with storage }, .error (.storage e))
  | (storage, .ok ()) => ({ logger with storage }, .ok ())

def rotate (logger : AuditLogger) (io : AuditIo) : AuditLogger × Except AuditError Unit :=
  match logger.storage.forceRotation io with
  | (storage, .error e) => ({ logger with storage }, .error (.storage e))
  | (storage, .ok ()) => ({ logger with storage }, .ok ())

end AuditLogger

end Hsm
