import Hsm.Audit.Checkpoint

/-! Log files on disk: buffered writes, size-triggered rotation, and the checkpoint file. -/

namespace Hsm

abbrev IoError := String

/-- Which operations on files fail during a call. -/
structure AuditIo where
  openLog : Option IoError := none
  readLog : Option IoError := none
  writeAll : Option IoError := none
  /-- The bytes of a line that a failing write leaves in the file, and what a parser says of them. -/
  torn : Option (Nat × String) := none
  flush : Option IoError := none
  rotateFlush : Option IoError := none
  rename : Option (Nat × IoError) := none
  writeCheckpoint : Option IoError := none
  readCheckpoint : Option IoError := none
  deriving DecidableEq

def AuditIo.renameFault (io : AuditIo) (index : Nat) : Option IoError :=
  match io.rename with
  | some (failing, e) => if failing = index then some e else none
  | none => none

inductive StorageError where
  | io (text : IoError)
  | serialization (text : String)
  | checkpoint (error : CheckpointError)
  deriving DecidableEq, Repr

structure StorageConfig where
  maxFileSize : Nat := 100 * 1024 * 1024
  maxFiles : Nat := 10
  syncWrites : Bool := true

/-- What a line is: blank, written for an event, or nothing that is read as an event. -/
inductive LineText where
  | blank
  | event (event : AuditEvent)
  | malformed (error : String)

structure LogLine where
  text : LineText
  size : Nat
  /-- Of a line without its end: what a parser says if another line goes on behind it. -/
  unended : Option String := none

abbrev LogFile := List LogLine

inductive CheckpointFile where
  | blank
  | checkpoint (checkpoint : Checkpoint)
  | malformed (error : String)

structure LogDir where
  current : Option LogFile
  rotated : Nat → Option LogFile
  checkpoint : Option CheckpointFile

structure AuditStorage where
  config : StorageConfig
  dir : LogDir
  fileOpen : Bool
  buffer : LogFile
  currentSize : Nat

/-- The line of an event's JSON text. -/
def LogLine.ofEvent (prim : AuditPrimitives) (event : AuditEvent) : LogLine where
  text := .event event
  size := (asBytes (prim.toJson (event.toValue prim))).length + 1

/-- The first bytes of a line, which are all of it but its end or no whole value. -/
def LogLine.tear (line : LogLine) (bytes : Nat) (error : String) : LogLine where
  text := if bytes + 1 = line.size then line.text else .malformed error
  size := bytes
  unended := some error

def LogFile.size (file : LogFile) : Nat := (file.map LogLine.size).sum

def LogFile.events (prim : AuditPrimitives) : LogFile → Except StorageError (List AuditEvent)
  | [] => .ok []
  | line :: rest =>
    match if rest.isEmpty then none else line.unended with
    | some error => .error (.serialization error)
    | none =>
      match line.text with
      | .blank => LogFile.events prim rest
      | .malformed error => .error (.serialization error)
      | .event event => do
        let event ← (event.reread prim).mapError .serialization
        return event :: (← LogFile.events prim rest)

namespace LogDir

def empty : LogDir := ⟨none, fun _ => none, none⟩

def removeRotated (dir : LogDir) (index : Nat) : LogDir :=
  { dir with rotated := fun i => if i = index then none else dir.rotated i }

def renameRotated (dir : LogDir) (source target : Nat) : LogDir :=
  { dir with rotated := fun i =>
      if i = target then dir.rotated source else if i = source then none else dir.rotated i }

def renameCurrent (dir : LogDir) : LogDir :=
  { dir with current := none, rotated := fun i => if i = 1 then dir.current else dir.rotated i }

def shiftRotated (io : AuditIo) (maxFiles : Nat) : Nat → LogDir → LogDir × Option IoError
  | 0, dir => (dir, none)
  | index + 1, dir =>
    match dir.rotated (index + 1) with
    | none => shiftRotated io maxFiles index dir
    | some _ =>
      match io.renameFault (index + 1) with
      | some e => (dir, some e)
      | none =>
        shiftRotated io maxFiles index
          (if index + 2 > maxFiles then dir.removeRotated (index + 1)
            else dir.renameRotated (index + 1) (index + 2))

end LogDir

namespace AuditStorage

variable (storage : AuditStorage)

def openCurrentFile (io : AuditIo) :
    AuditStorage × Except StorageError Unit :=
  match io.openLog with
  | some e => (storage, .error (.io e))
  | none =>
    let file := storage.dir.current.getD []
    ({ storage with
        dir := { storage.dir with current := some file }
        fileOpen := true
        buffer := []
        currentSize := LogFile.size file }, .ok ())

def new (config : StorageConfig) (io : AuditIo) (dir : LogDir) : Except StorageError AuditStorage :=
  match openCurrentFile ⟨config, dir, false, [], 0⟩ io with
  | (storage, .ok ()) => .ok storage
  | (_, .error e) => .error e

def flushBuffer : AuditStorage :=
  { storage with
    dir := { storage.dir with current := some (storage.dir.current.getD [] ++ storage.buffer) }
    buffer := [] }

def flushOpen (failure : Option IoError) :
    AuditStorage × Except StorageError Unit :=
  if storage.fileOpen then
    match failure with
    | some e => (storage, .error (.io e))
    | none => (storage.flushBuffer, .ok ())
  else (storage, .ok ())

def flush (storage : AuditStorage) (io : AuditIo) : AuditStorage × Except StorageError Unit :=
  storage.flushOpen io.flush

def rotate (io : AuditIo) : AuditStorage × Except StorageError Unit :=
  -- Flush and close current file
  match storage.flushOpen io.rotateFlush with
  | (storage, .error e) => (storage, .error e)
  | (storage, .ok ()) =>
    let storage := { storage with fileOpen := false }
    -- Rotate existing files
    match storage.dir.shiftRotated io storage.config.maxFiles (storage.config.maxFiles - 1) with
    | (dir, some e) => ({ storage with dir }, .error (.io e))
    | (dir, none) =>
      -- Rename current file to .1
      match dir.current, io.renameFault 0 with
      | some _, some e => ({ storage with dir }, .error (.io e))
      | some _, none =>
        openCurrentFile { storage with dir := dir.renameCurrent, currentSize := 0 } io
      | none, _ => openCurrentFile { storage with dir, currentSize := 0 } io

def forceRotation (io : AuditIo) :
    AuditStorage × Except StorageError Unit := storage.rotate io

/-- The capacity of a buffered writer. -/
def bufferSize : Nat := 8192

/-- A line that fits into the buffer is written whole or not at all; a longer one goes to the file
directly, and part of it may stay there. -/
def failedWrite (line : LogLine) (torn : Option (Nat × String)) : AuditStorage :=
  match torn with
  | none => storage
  | some (bytes, error) =>
    if bufferSize ≤ line.size ∧ 0 < bytes ∧ bytes < line.size then
      flushBuffer { storage with buffer := storage.buffer ++ [line.tear bytes error] }
    else storage

def appendLine (prim : AuditPrimitives) (storage : AuditStorage) (io : AuditIo)
    (event : AuditEvent) : AuditStorage × Except StorageError Unit :=
  if storage.fileOpen then
    let line := LogLine.ofEvent prim event
    match io.writeAll with
    | some e => (storage.failedWrite line io.torn, .error (.io e))
    | none =>
      let written := { storage with buffer := storage.buffer ++ [line] }
      let counted (storage : AuditStorage) : AuditStorage :=
        { storage with currentSize := storage.currentSize + line.size }
      if storage.config.syncWrites then
        match io.flush with
        -- A failed flush leaves the line with the buffered writer.
        | some e => (written, .error (.io e))
        | none => (counted written.flushBuffer, .ok ())
      else (counted written, .ok ())
  else (storage, .error (.io "Log file not open"))

def writeEvent (prim : AuditPrimitives) (storage : AuditStorage) (io : AuditIo)
    (event : AuditEvent) : AuditStorage × Except StorageError Unit :=
  -- Check if rotation is needed
  if storage.currentSize ≥ storage.config.maxFileSize then
    match storage.rotate io with
    | (storage, .error e) => (storage, .error e)
    | (storage, .ok ()) => storage.appendLine prim io event
  else storage.appendLine prim io event

def readEvents (prim : AuditPrimitives) (io : AuditIo) (file : Option LogFile) :
    Except StorageError (List AuditEvent) :=
  match io.readLog, file with
  | some e, _ => .error (.io e)
  | none, none => .error (.io "No such file or directory (os error 2)")
  | none, some file => LogFile.events prim file

def readCurrentEvents (prim : AuditPrimitives) (storage : AuditStorage) (io : AuditIo) :
    Except StorageError (List AuditEvent) := readEvents prim io storage.dir.current

def writeCheckpoint (storage : AuditStorage) (io : AuditIo) (checkpoint : Checkpoint) :
    AuditStorage × Except StorageError Unit :=
  match io.writeCheckpoint with
  -- A failure on the way leaves the previous checkpoint in place.
  | some e => (storage, .error (.io e))
  | none =>
    ({ storage with dir := { storage.dir with checkpoint := some (.checkpoint checkpoint) } }, .ok ())

def readCheckpoint (storage : AuditStorage) (io : AuditIo) :
    Except StorageError (Option Checkpoint) :=
  match storage.dir.checkpoint with
  | none => .ok none
  | some contents =>
    match io.readCheckpoint, contents with
    | some e, _ => .error (.io e)
    | none, .blank => .ok none
    | none, .malformed error => .error (.checkpoint (.serialization error))
    | none, .checkpoint checkpoint => .ok (some checkpoint)

def close : LogDir :=
  if storage.fileOpen then storage.flushBuffer.dir else storage.dir

end AuditStorage

end Hsm
