import Hsm.Lib.Bytes
import Hsm.Lib.Dict
import Hsm.Lib.Run

/-! The Raft log: entries in memory, and copies of them in a store whose operations may fail. -/

namespace Hsm.Cluster

inductive Command where
  | storeKey (keyId : String) (data : Bytes)
  | deleteKey (keyId : String)
  | recordSigningAttempt (keyId : String) (messageHash : Bytes)
  | createSession (sessionId : String) (data : Bytes)
  | deleteSession (sessionId : String)
  deriving DecidableEq, Repr

/-- An entry of the log; its index and term are u64 in the source, below 2^64. -/
structure LogEntry where
  index : Nat
  term : Nat
  command : Command
  timestamp : Int
  deriving DecidableEq, Repr

def logKey (index : Nat) : String := "log:" ++ toString index

/-- Storage, with the outcomes of its next operations. -/
structure Db where
  records : Dict String LogEntry
  outcomes : List Bool

namespace Db

def perform (db : Db) (change : Dict String LogEntry → Dict String LogEntry) : Db × Bool :=
  if db.outcomes.headD true then (⟨change db.records, db.outcomes.tail⟩, true)
  else (⟨db.records, db.outcomes.tail⟩, false)

end Db

/-- The stored entries; the first index is a u64 in the source, below 2^64. -/
structure RaftLog where
  entries : List LogEntry
  firstIndex : Nat
  storage : Option Db

namespace RaftLog

def new : RaftLog := ⟨[], 1, none⟩

def loadFromStorage (db : Db) : List LogEntry :=
  let scanned := db.records.toList.filter fun record => "log:".toList.isPrefixOf record.1.toList
  (scanned.map Prod.snd).mergeSort fun first second => first.index ≤ second.index

def withStorage (db : Db) : RaftLog :=
  let entries := loadFromStorage db
  ⟨entries, (entries.head?.map LogEntry.index).getD 1, some db⟩

variable (log : RaftLog)

def lastIndex : Nat :=
  if log.entries = [] then log.firstIndex - 1 else log.firstIndex + log.entries.length - 1

def get (index : Nat) : Option LogEntry :=
  if index < log.firstIndex then none else log.entries[index - log.firstIndex]?

def persist (change : Dict String LogEntry → Dict String LogEntry) :
    RaftLog × Bool :=
  match log.storage with
  | none => (log, true)
  | some db =>
    let result := db.perform change
    ({ log with storage := some result.1 }, result.2)

def insertRecord (entry : LogEntry) : RaftLog × Bool :=
  log.persist (·.insert (logKey entry.index) entry)

def removeRecord (entry : LogEntry) : RaftLog × Bool :=
  log.persist (·.erase (logKey entry.index))

def flush : RaftLog × Bool := log.persist id

def append (term : Nat) (command : Command) (now : Int) : RaftLog × Option Nat :=
  let entry : LogEntry := ⟨log.lastIndex + 1, term, command, now⟩
  match log.insertRecord entry with
  | (log, false) => (log, none)
  | (log, true) =>
    match log.flush with
    | (log, false) => (log, none)
    | (log, true) => ({ log with entries := log.entries ++ [entry] }, some entry.index)

def truncateLoop (index : Nat) : Nat → RaftLog → RaftLog × Bool
  | 0, log => (log, true)
  | count + 1, log =>
    if log.lastIndex > index then
      match log.entries.getLast? with
      | none => (log, true)
      | some entry =>
        match { log with entries := log.entries.dropLast }.removeRecord entry with
        | (log, false) => (log, false)
        | (log, true) => truncateLoop index count log
    else (log, true)

def truncateAfter (index : Nat) : RaftLog × Bool :=
  truncateLoop index log.entries.length log

def push (entry : LogEntry) : RaftLog × Bool :=
  match log.insertRecord entry with
  | (log, false) => (log, false)
  | (log, true) => ({ log with entries := log.entries ++ [entry] }, true)

def existing (entry : LogEntry) : Option LogEntry :=
  if entry.index ≤ log.lastIndex then log.get entry.index else none

def appendLoop : RaftLog → List LogEntry → RaftLog × Bool
  | log, [] => (log, true)
  | log, entry :: rest =>
    match log.existing entry with
    | some existing =>
      if existing.term = entry.term then appendLoop log rest
      else
        match log.truncateAfter entry.index with
        | (log, false) => (log, false)
        | (log, true) =>
          match log.push entry with
          | (log, false) => (log, false)
          | (log, true) => appendLoop log rest
    | none =>
      match log.push entry with
      | (log, false) => (log, false)
      | (log, true) => appendLoop log rest

def appendAll (entries : List LogEntry) : RaftLog × Option Bool :=
  match log.appendLoop entries with
  | (log, false) => (log, none)
  | (log, true) =>
    match log.flush with
    | (log, false) => (log, none)
    | (log, true) => (log, some true)

def appendEntries (prevIndex prevTerm : Nat) (entries : List LogEntry) :
    RaftLog × Option Bool :=
  if prevIndex > 0 then
    match log.get prevIndex with
    | some prevEntry =>
      if prevEntry.term ≠ prevTerm then
        match log.truncateAfter prevIndex with
        | (log, false) => (log, none)
        | (log, true) => (log, some false)
      else log.appendAll entries
    | none => if prevIndex ≥ log.firstIndex then (log, some false) else log.appendAll entries
  else log.appendAll entries

def compactLoop : Nat → RaftLog → RaftLog × Bool
  | 0, log => (log, true)
  | count + 1, log =>
    match log.entries with
    | [] => compactLoop count { log with firstIndex := log.firstIndex + 1 }
    | entry :: rest =>
      match { log with entries := rest }.removeRecord entry with
      | (log, false) => (log, false)
      | (log, true) => compactLoop count { log with firstIndex := log.firstIndex + 1 }

def compact (index : Nat) : RaftLog × Bool :=
  if index < log.firstIndex then (log, true)
  else
    match compactLoop (index + 1 - log.firstIndex) log with
    | (log, false) => (log, false)
    | (log, true) => log.flush

end RaftLog

inductive LogCall where
  | append (term : Nat) (command : Command) (now : Int)
  | appendEntries (prevIndex prevTerm : Nat) (entries : List LogEntry)
  | compact (index : Nat)
  deriving DecidableEq

inductive LogReply where
  | appended (index : Nat)
  | replicated (accepted : Bool)
  | compacted
  | storageError
  deriving DecidableEq

abbrev LogEvent := LogCall × LogReply

def RaftLog.serve (log : RaftLog) (call : LogCall) : RaftLog × List LogEvent :=
  match call with
  | .append term command now =>
    let result := log.append term command now
    (result.1, [(call, (result.2.map LogReply.appended).getD .storageError)])
  | .appendEntries prevIndex prevTerm entries =>
    let result := log.appendEntries prevIndex prevTerm entries
    (result.1, [(call, (result.2.map LogReply.replicated).getD .storageError)])
  | .compact index =>
    let result := log.compact index
    (result.1, [(call, if result.2 then .compacted else .storageError)])

namespace RaftLog

def follows (log : RaftLog) (prevIndex prevTerm : Nat) : Bool :=
  prevIndex = 0 ||
    match log.get prevIndex with
    | some prevEntry => prevEntry.term = prevTerm
    | none => prevIndex < log.firstIndex

def succeeds (log : RaftLog) (count : Nat) : Bool :=
  match log.storage with
  | none => true
  | some db => (db.outcomes.take count).all id

end RaftLog

/-- Given entries are numbered from the previous one on. -/
def LogCall.numbered : LogCall → Bool
  | .append .. => true
  | .appendEntries prevIndex _ entries =>
    entries.map LogEntry.index = List.range' (prevIndex + 1) entries.length
  | .compact _ => true

/-- Given entries are not compacted and contradict no stored one, and compactions succeed. -/
def LogCall.meets (log : RaftLog) : LogCall → Bool
  | .append .. => true
  | .appendEntries prevIndex prevTerm entries =>
    !log.follows prevIndex prevTerm ||
      (entries = [] || log.firstIndex ≤ prevIndex + 1) &&
        entries.all fun entry => (log.get entry.index).all fun existing =>
          existing.term = entry.term
  | .compact index => log.succeeds (min log.entries.length (index + 1 - log.firstIndex))

def LogCall.fits (log : RaftLog) (call : LogCall) : Bool := call.numbered && call.meets log

end Hsm.Cluster
