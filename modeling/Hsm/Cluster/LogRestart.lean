import Hsm.Cluster.LogLaws
import Mathlib.Data.List.Nodup

/-! A log that is opened again from its storage. -/

namespace Hsm.Cluster

namespace RaftLog

variable {reliable : Prop} {log : RaftLog}

theorem isPrefixOf_logKey (index : Nat) :
    "log:".toList.isPrefixOf (logKey index).toList = true := by
  rw [logKey, String.toList_append, List.isPrefixOf_iff_prefix]
  exact List.prefix_append _ _

theorem loadFromStorage_eq {db : Db} {first : Nat} {entries : List LogEntry}
    (holds : db.Holds entries) (numbered : Numbered first entries) :
    loadFromStorage db = entries := by
  have found : ∀ record, record ∈ db.records.toList ↔
      record.2 ∈ entries ∧ record.1 = logKey record.2.index := fun record => by
    rw [Std.ExtTreeMap.mem_toList_iff_getElem?_eq_some, holds]
  have all : (db.records.toList.filter fun record =>
      "log:".toList.isPrefixOf record.1.toList) = db.records.toList := by
    refine List.filter_eq_self.mpr fun record member => ?_
    rw [((found record).mp member).2]
    exact isPrefixOf_logKey _
  have indices := map_of_numbered numbered
  -- Every entry is stored once, so the storage lists a permutation of the entries.
  have distinct : (db.records.toList.map Prod.snd).Nodup := by
    rw [List.Nodup, List.pairwise_map]
    refine Std.ExtTreeMap.distinct_keys_toList.imp_of_mem ?_
    intro one other oneMember otherMember apart same
    refine apart (Std.compare_eq_iff_eq.mpr ?_)
    rw [((found one).mp oneMember).2, ((found other).mp otherMember).2, same]
  have perm : (db.records.toList.map Prod.snd).Perm entries := by
    have nodup : entries.Nodup := List.Nodup.of_map LogEntry.index
      (indices ▸ List.nodup_range' 1 (by decide))
    refine (List.perm_ext_iff_of_nodup distinct nodup).mpr fun entry => ?_
    rw [List.mem_map]
    constructor
    · rintro ⟨record, member, rfl⟩
      exact ((found record).mp member).1
    · intro member
      exact ⟨(logKey entry.index, entry), (found _).mpr ⟨member, rfl⟩, rfl⟩
  have sorted : entries.Pairwise fun one other => one.index ≤ other.index := by
    rw [← List.pairwise_map (f := LogEntry.index), indices]
    exact (List.pairwise_lt_range').imp fun below => Nat.le_of_lt below
  have perms := (List.mergeSort_perm (db.records.toList.map Prod.snd)
    (fun one other => one.index ≤ other.index)).trans perm
  rw [loadFromStorage, all]
  refine List.Perm.eq_of_pairwise ?_ ?_ sorted perms
  · intro one other oneMember otherMember notAfter notBefore
    exact numbered.eq_of_index (perms.mem_iff.mp oneMember) otherMember (by omega)
  · have ordered := @List.pairwise_mergeSort LogEntry
      (fun one other => decide (one.index ≤ other.index)) ?_ ?_ (db.records.toList.map Prod.snd)
    · simpa using ordered
    · simp only [decide_eq_true_eq]
      omega
    · simp only [Bool.or_eq_true, decide_eq_true_eq]
      omega

def tellsFirst (log : RaftLog) : Bool := log.entries ≠ [] || log.firstIndex = 1

theorem Sound.withStorage (sound : log.Sound True) {db : Db} (isStorage : log.storage = some db)
    (tells : log.tellsFirst = true) : RaftLog.withStorage db = log := by
  have loaded := loadFromStorage_eq (sound.holds trivial db isStorage) sound.numbered
  have first : (log.entries.head?.map LogEntry.index).getD 1 = log.firstIndex := by
    simp only [tellsFirst, Bool.or_eq_true, decide_eq_true_eq] at tells
    have numbered := sound.numbered
    cases isEntries : log.entries with
    | nil =>
      rcases tells with some | isOne
      · exact absurd isEntries some
      · exact isOne.symm
    | cons entry rest =>
      rw [isEntries, Numbered.cons_iff] at numbered
      exact numbered.1
  rw [RaftLog.withStorage, loaded, first, ← isStorage]

def reopen (log : RaftLog) : RaftLog :=
  match log.storage with
  | none => .new
  | some db => .withStorage db

theorem Sound.reopen (sound : log.Sound True) (tells : log.tellsFirst = true) :
    log.reopen = log := by
  obtain ⟨db, isStorage⟩ := Option.isSome_iff_exists.mp (sound.stored trivial)
  have same := sound.withStorage isStorage tells
  unfold RaftLog.reopen
  rw [isStorage]
  exact same

def live (log : RaftLog) : Option LogCall → RaftLog × List LogEvent
  | some call => log.serve call
  | none => (log.reopen, [])

/-- A restart can tell the first index. -/
def endures (log : RaftLog) : Option LogCall → Bool
  | some call => call.fits log
  | none => log.tellsFirst

def truncates (log : RaftLog) : Option LogCall → Bool
  | some (.appendEntries prevIndex prevTerm _) =>
    prevIndex > 0 && (log.get prevIndex).any fun prevEntry => prevEntry.term ≠ prevTerm
  | _ => false

/-- A log whose storage never fails stays so. -/
theorem Sound.live (sound : log.Sound True) {step : Option LogCall}
    (endures : log.endures step = true) : (log.live step).1.Sound True := by
  cases step with
  | some call => exact sound.serve endures
  | none =>
    rw [RaftLog.live, sound.reopen endures]
    exact sound

theorem Extends.lastIndex_le {next : RaftLog} (extended : log.Extends next) :
    log.lastIndex ≤ next.lastIndex := by
  obtain ⟨first, more, entries⟩ := extended
  rw [lastIndex_eq, lastIndex_eq, first, entries, List.length_append]
  omega

theorem append_eq (log : RaftLog) (term : Nat) (command : Command) (now : Int) :
    log.Extends (log.append term command now).1 ∧
      ∀ index, (log.append term command now).2 = some index →
        index = log.lastIndex + 1 ∧
          (log.append term command now).1.entries =
            log.entries ++ [⟨index, term, command, now⟩] := by
  have unchanged := log.persist_fst
    (·.insert (logKey (log.lastIndex + 1)) ⟨log.lastIndex + 1, term, command, now⟩)
  cases result : log.insertRecord ⟨log.lastIndex + 1, term, command, now⟩ with
  | mk next ok =>
    simp only [insertRecord] at result
    rw [result] at unchanged
    have entries : next.entries = log.entries := by rw [show next = _ from unchanged]
    have first : next.firstIndex = log.firstIndex := by rw [show next = _ from unchanged]
    have unflushed := next.persist_fst id
    simp only [append, insertRecord, result]
    cases ok with
    | false => exact ⟨⟨first, [], by rw [entries, List.append_nil]⟩, by simp⟩
    | true =>
      cases flush : next.flush with
      | mk last isFlushed =>
        rw [← RaftLog.flush, flush] at unflushed
        have lastEntries : last.entries = log.entries := by
          rw [show last = _ from unflushed, entries]
        have lastFirst : last.firstIndex = log.firstIndex := by
          rw [show last = _ from unflushed, first]
        simp only [flush]
        cases isFlushed with
        | false => exact ⟨⟨lastFirst, [], by rw [lastEntries, List.append_nil]⟩, by simp⟩
        | true =>
          refine ⟨⟨lastFirst, _, congrArg (· ++ _) lastEntries⟩, fun index isIndex => ?_⟩
          cases isIndex
          exact ⟨rfl, congrArg (· ++ _) lastEntries⟩

theorem lastIndex_le_compactLoop (count : Nat) (log : RaftLog)
    (succeeds : log.succeeds (min log.entries.length count) = true) :
    log.lastIndex ≤ (compactLoop count log).1.lastIndex := by
  induction count generalizing log with
  | zero => exact Nat.le_refl _
  | succ count ih =>
    rw [compactLoop]
    cases isEntries : log.entries with
    | nil =>
      refine Nat.le_trans ?_ (ih ⟨[], log.firstIndex + 1, log.storage⟩ ?_)
      · simp only [lastIndex_eq, isEntries, List.length_nil]
        omega
      · unfold RaftLog.succeeds
        cases log.storage with
        | none => rfl
        | some db => simp
    | cons entry rest =>
      rw [isEntries, List.length_cons, Nat.succ_min_succ] at succeeds
      obtain ⟨ok, later⟩ := persist_of_succeeds { log with entries := rest } succeeds
        (·.erase (logKey entry.index))
      have unchanged := persist_fst { log with entries := rest } (·.erase (logKey entry.index))
      cases result : { log with entries := rest }.removeRecord entry with
      | mk next isOk =>
        rw [← removeRecord, result] at unchanged ok later
        simp only [result]
        have isTrue : isOk = true := ok
        subst isTrue
        have entries : next.entries = rest := by rw [show next = _ from unchanged]
        have first : next.firstIndex = log.firstIndex := by rw [show next = _ from unchanged]
        refine Nat.le_trans ?_ (ih { next with firstIndex := next.firstIndex + 1 } ?_)
        · simp only [lastIndex_eq, isEntries, entries, first, List.length_cons]
          omega
        · simp only [entries]
          exact later

theorem Sound.lastIndex_le (sound : log.Sound reliable) {call : LogCall}
    (fits : call.fits log = true) (kept : log.truncates (some call) = false) :
    log.lastIndex ≤ (log.serve call).1.lastIndex := by
  obtain ⟨numbered, meets⟩ := Bool.and_eq_true_iff.mp fits
  cases call with
  | append term command now => exact (log.append_eq term command now).1.lastIndex_le
  | appendEntries prevIndex prevTerm entries =>
    cases follows : log.follows prevIndex prevTerm with
    | true => exact ((sound.appendEntries numbered meets).2.1 follows).lastIndex_le
    | false =>
      have unchanged : (log.appendEntries prevIndex prevTerm entries).1 = log := by
        unfold RaftLog.follows at follows
        rw [Bool.or_eq_false_iff] at follows
        have positive : prevIndex > 0 := Nat.pos_of_ne_zero (of_decide_eq_false follows.1)
        rw [RaftLog.appendEntries, if_pos positive]
        cases found : log.get prevIndex with
        | none =>
          simp only [found, decide_eq_false_iff_not, Nat.not_lt] at follows
          simp [follows.2]
        | some prevEntry =>
          simp only [found, decide_eq_false_iff_not] at follows
          simp [truncates, positive, found, follows.2] at kept
      exact Nat.le_of_eq (congrArg lastIndex unchanged.symm)
  | compact index =>
    change log.lastIndex ≤ (log.compact index).1.lastIndex
    rw [RaftLog.compact]
    split_ifs
    · exact Nat.le_refl _
    · have bound := lastIndex_le_compactLoop (index + 1 - log.firstIndex) log meets
      cases result : RaftLog.compactLoop (index + 1 - log.firstIndex) log with
      | mk next ok =>
        rw [result] at bound
        cases ok with
        | false => exact bound
        | true =>
          refine Nat.le_trans bound (Nat.le_of_eq ?_)
          simp only [RaftLog.flush]
          rw [next.persist_fst id, lastIndex_eq, lastIndex_eq]

def reply (log : RaftLog) : LogCall → LogReply
  | .append term command now =>
    ((log.append term command now).2.map LogReply.appended).getD .storageError
  | .appendEntries prevIndex prevTerm entries =>
    ((log.appendEntries prevIndex prevTerm entries).2.map LogReply.replicated).getD .storageError
  | .compact index => if (log.compact index).2 then .compacted else .storageError

theorem serve_singleton (log : RaftLog) (call : LogCall) :
    (log.serve call).2 = [(call, log.reply call)] := by
  cases call <;> rfl

theorem Sound.append_isSome (sound : log.Sound True) (term : Nat) (command : Command)
    (now : Int) : (log.append term command now).2 = some (log.lastIndex + 1) := by
  let entry : LogEntry := ⟨log.lastIndex + 1, term, command, now⟩
  have succeeds : ∀ (log : RaftLog) change,
      (True → ∀ db, log.storage = some db → db.outcomes = []) → (log.persist change).2 = true := by
    intro log change succeeds
    by_contra failed
    exact log.not_reliable_of_persist change succeeds (Bool.not_eq_true _ ▸ failed) trivial
  have stored := log.persist_succeeds (·.insert (logKey entry.index) entry) sound.succeeds
  have isStored := succeeds log (·.insert (logKey entry.index) entry) sound.succeeds
  cases result : log.insertRecord entry with
  | mk next ok =>
    rw [← insertRecord, result] at stored isStored
    have isOk : ok = true := isStored
    have isFlushed := succeeds next id stored
    cases flush : next.flush with
    | mk last isLast =>
      rw [← RaftLog.flush, flush] at isFlushed
      have isLastOk : isLast = true := isFlushed
      simp only [RaftLog.append]
      rw [show log.insertRecord ⟨log.lastIndex + 1, term, command, now⟩ = (next, ok) from result,
        isOk]
      simp only [flush, isLastOk]

def HandedOut (log : RaftLog) (history : List LogEvent) : Prop :=
  ∀ call index, (call, .appended index) ∈ history → index ≤ log.lastIndex

theorem HandedOut.live {history : List LogEvent} (sound : log.Sound True)
    (handedOut : log.HandedOut history) {step : Option LogCall} (endures : log.endures step = true)
    (kept : log.truncates step = false) :
    (log.live step).1.HandedOut (history ++ (log.live step).2) := by
  cases step with
  | none =>
    rw [RaftLog.live, sound.reopen endures, List.append_nil]
    exact handedOut
  | some call =>
    have bound := sound.lastIndex_le endures kept
    intro other index member
    rcases List.mem_append.mp member with earlier | isNew
    · exact Nat.le_trans (handedOut other index earlier) bound
    · have isEvent := List.mem_singleton.mp (serve_singleton log call ▸ isNew)
      cases call with
      | append term command now =>
        have positive := sound.positive
        obtain ⟨extended, appended⟩ := log.append_eq term command now
        change index ≤ (log.append term command now).1.lastIndex
        cases result : (log.append term command now).2 with
        | none => simp [reply, result] at isEvent
        | some next =>
          obtain ⟨isNext, entries⟩ := appended next result
          simp only [reply, result, Option.map_some, Option.getD_some, Prod.mk.injEq,
            LogReply.appended.injEq] at isEvent
          rw [lastIndex_eq, entries, extended.1, List.length_append, isEvent.2, isNext,
            lastIndex_eq]
          simp only [List.length_singleton]
          omega
      | appendEntries prevIndex prevTerm entries =>
        cases result : (log.appendEntries prevIndex prevTerm entries).2 <;>
          simp [reply, result] at isEvent
      | compact limit =>
        cases result : (log.compact limit).2 <;> simp [reply, result] at isEvent

end RaftLog

/-- A restart keeps the log, as long as it finds the first index among the entries. -/
theorem raft_log_survives_restart {steps : List (Option LogCall)}
    (along : Along (fun log step => log.endures step = true) RaftLog.live
      (.withStorage ⟨∅, []⟩) steps) :
    let log := (trace RaftLog.live (.withStorage ⟨∅, []⟩) steps).1
    let history := (trace RaftLog.live (.withStorage ⟨∅, []⟩) steps).2
    log.tellsFirst = true →
      log.reopen.entries = log.entries ∧
      (∀ index, log.reopen.get index = log.get index) ∧
      log.reopen.lastIndex = log.lastIndex ∧
      ∀ term command now, ∃ next, (log.reopen.append term command now).2 = some next ∧
        next = log.lastIndex + 1 ∧
        (Along (fun log step => log.truncates step = false) RaftLog.live (.withStorage ⟨∅, []⟩)
          steps → ∀ call index, (call, .appended index) ∈ history → index < next) := by
  intro log history tells
  have start : (RaftLog.withStorage ⟨∅, []⟩).Sound True := by
    have sound := RaftLog.sound_withStorage []
    simpa using sound
  have sound : log.Sound True := trace_invariant (fun log (_ : List LogEvent) => log.Sound True)
    (fun _ _ _ sound endures => sound.live endures) steps _ [] start along
  rw [sound.reopen tells]
  refine ⟨rfl, fun _ => rfl, rfl, fun term command now => ?_⟩
  refine ⟨log.lastIndex + 1, sound.append_isSome term command now, rfl, fun kept call index => ?_⟩
  -- Both conditions hold along the run, so indices that were handed out stay taken.
  have both := along_and along kept
  have taken := trace_invariant
    (fun log (past : List LogEvent) => log.Sound True ∧ log.HandedOut past)
    (fun _ _ _ known step => ⟨known.1.live step.1, known.2.live known.1 step.1 step.2⟩) steps _ []
    ⟨start, nofun⟩ both
  exact fun member => Nat.lt_succ_of_le (taken.2 call index member)

namespace Known

def compactingCalls : List (Option LogCall) :=
  [some (.append 1 (.deleteKey "old") 0), some (.compact 1)]

def restartingCalls : List (Option LogCall) :=
  [some (.append 1 (.deleteKey "old") 0), some (.append 1 (.deleteKey "new") 0),
    some (.compact 1), none]

end Known

theorem compacted_index_reused :
    let log := (trace RaftLog.live (.withStorage ⟨∅, []⟩) Known.compactingCalls).1
    (trace RaftLog.live (.withStorage ⟨∅, []⟩) Known.compactingCalls).2 =
      [(.append 1 (.deleteKey "old") 0, .appended 1), (.compact 1, .compacted)] ∧
    log.lastIndex = 1 ∧ log.reopen.lastIndex = 0 ∧
    (log.reopen.append 1 (.deleteKey "new") 0).2 = some 1 := by
  decide +kernel

theorem raft_log_survives_restart_two :
    let log := (trace RaftLog.live (.withStorage ⟨∅, []⟩) Known.restartingCalls).1
    log.reopen.lastIndex = 2 ∧ (log.reopen.append 1 (.deleteKey "next") 0).2 = some 3 := by
  intro log
  have along : Along (fun log step => RaftLog.endures log step = true) RaftLog.live
      (.withStorage ⟨∅, []⟩) Known.restartingCalls := by decide +kernel
  have last : log.lastIndex = 2 := by decide +kernel
  obtain ⟨-, -, sameLast, next⟩ := raft_log_survives_restart along (by decide +kernel)
  obtain ⟨index, isIndex, rfl, -⟩ := next 1 (.deleteKey "next") 0
  refine ⟨sameLast.trans last, isIndex.trans ?_⟩
  exact congrArg (fun index => some (index + 1)) last

end Hsm.Cluster
